import MessageCatalog.Proofs.DateRoundTrip
import Mathlib.Data.List.Forall2

/-!
# What a read date says of its text

A text that is read as a date falls into one piece for each token of the pattern. Writing the date
again gives the same pieces up to what reading does not keep: zeros in front of numbers, which
weekday was named, which of the numbers a dozen apart an hour of the half day was, and the century
of a year of two digits.

## Main statements

* `exists_readAlong` : reading along tokens cuts the text into pieces and notes each of them
* `besides_of_readAlong` : only the fields of the tokens are noted
* `rewritten_of_readAlong` : the pieces and what is written for them
* `exists_pieces_of_read` : the same for a pattern whose fields do not interfere
* `exists_pieces_of_named_style` : the same for the named styles of all locales
-/

namespace MessageCatalog

open Text

namespace DatePattern

/-! ## Section 1: Pieces -/

theorem takeNumber_eq_ok {text rest left : Text} {width : Option Nat} {n : Nat}
    (h : takeNumber text width rest = .ok (n, left)) :
    ∃ digits, rest = digits ++ left ∧ isNumeral digits = true ∧ n = value digits := by
  -- the digits taken are those at the start of the text, or the first ones of them
  obtain ⟨digits, hfront, htaken⟩ : ∃ digits : Text, digits <+: rest.takeWhile Char.isDigit ∧
      (if digits = [] then .error (.unparseable text "expected digits")
        else if value digits ≤ maxFieldValue then .ok (value digits, rest.drop digits.length)
        else .error (.unparseable text s!"'{digits.str}' is out of range")) =
          (.ok (n, left) : Except FormatError (Nat × Text)) := by
    cases width with
    | none => exact ⟨_, List.prefix_refl _, h⟩
    | some width => exact ⟨_, List.take_prefix width _, h⟩
  obtain ⟨rest', rfl⟩ := hfront.trans (List.takeWhile_prefix _)
  have hall : digits.all Char.isDigit = true :=
    List.all_eq_true.mpr fun c hc => List.mem_takeWhile_imp (hfront.subset hc)
  split_ifs at htaken with hnil hvalue
  obtain ⟨rfl, rfl⟩ := Prod.mk.inj (Except.ok.inj htaken)
  refine ⟨digits, by rw [List.drop_left], ?_, rfl⟩
  cases digits with
  | nil => exact absurd rfl hnil
  | cons c cs => exact hall

/-- One more name is either passed over or the best one from then on. -/
theorem longer_eq_some {rest other : Text} {best : Option (Nat × Text)} {k : Nat}
    {found : Nat × Text} (h : longer rest best (other, k) = some found) :
    best = some found ∨ (k, other) = found ∧ startsWith other rest = true := by
  unfold longer at h
  simp only at h
  split at h
  · rename_i hstarts
    cases best with
    | none => exact .inr ⟨Option.some.inj h, hstarts⟩
    | some kept =>
      simp only at h
      split at h
      · exact .inr ⟨Option.some.inj h, hstarts⟩
      · exact .inl h
  · exact .inl h

/-- The longest name is one of the names, and the text begins with it. -/
theorem of_longestName? {rest name : Text} {names : List Text} {i : Nat}
    (h : longestName? rest names = some (i, name)) :
    names[i]? = some name ∧ startsWith name rest = true := by
  have hfold : ∀ (entries : List (Text × Nat)) (best : Option (Nat × Text)),
      entries.foldl (longer rest) best = some (i, name) →
        best = some (i, name) ∨ (name, i) ∈ entries ∧ startsWith name rest = true := by
    intro entries
    induction entries with
    | nil => exact fun best hbest => .inl hbest
    | cons entry entries ih =>
      intro best hbest
      obtain hkept | ⟨hmem, hstarts⟩ := ih _ hbest
      · obtain hearlier | ⟨heq, hstarts⟩ := longer_eq_some hkept
        · exact .inl hearlier
        · obtain ⟨rfl, rfl⟩ := Prod.mk.inj heq
          exact .inr ⟨List.mem_cons_self, hstarts⟩
      · exact .inr ⟨List.mem_cons_of_mem _ hmem, hstarts⟩
  rw [longestName?_eq] at h
  obtain hnone | ⟨hmem, hstarts⟩ := hfold _ _ h
  · cases hnone
  · exact ⟨List.mem_zipIdx_iff_getElem?.mp hmem, hstarts⟩

theorem takeName_eq_ok {text rest left : Text} {names : List Text} {i : Nat}
    (h : takeName text names rest = .ok (i, left)) :
    ∃ name, rest = name ++ left ∧ names[i]? = some name := by
  unfold takeName at h
  split at h
  · rename_i i' name hlongest
    obtain ⟨hname, hstarts⟩ := of_longestName? hlongest
    obtain ⟨rfl, rfl⟩ := Prod.mk.inj (Except.ok.inj h)
    obtain ⟨tail, htail⟩ := Option.isSome_iff_exists.mp hstarts
    obtain rfl := stripPrefix?_eq_some_iff.mp htail
    exact ⟨name, by rw [List.drop_left], hname⟩
  · cases h

section

variable {currentYear : Int} {names : CalendarNames} {r r' r'' : DateReading}

/-- A piece of a text is read for a token, and noted. -/
inductive ReadsPiece (currentYear : Int) (names : CalendarNames) (r : DateReading) :
    DateToken → Text → DateReading → Prop
  | literal (c : Char) : ReadsPiece currentYear names r (.literal c) [c] r
  | number {field : DateField} {count : Nat} {abuts : Bool} {digits : Text}
      (hnumeric : isNumeric count field = true) (hdigits : isNumeral digits = true) :
      ReadsPiece currentYear names r (.field field count abuts) digits
        (noteNumber currentYear r count (value digits) field)
  | name {field : DateField} {count : Nat} {abuts : Bool} {list : List Text} {i : Nat} {name : Text}
      (hlist : nameList? names count field = some list) (hname : list[i]? = some name) :
      ReadsPiece currentYear names r (.field field count abuts) name (noteName r i field)

/-- Pieces of a text are read along some tokens. -/
inductive ReadAlong (currentYear : Int) (names : CalendarNames) :
    DateReading → List DateToken → List Text → DateReading → Prop
  | nil (r : DateReading) : ReadAlong currentYear names r [] [] r
  | cons {r r' r'' : DateReading} {token : DateToken} {tokens : List DateToken} {piece : Text}
      {pieces : List Text} (hpiece : ReadsPiece currentYear names r token piece r')
      (hpieces : ReadAlong currentYear names r' tokens pieces r'') :
      ReadAlong currentYear names r (token :: tokens) (piece :: pieces) r''

/-- **One token** takes one piece of the text. -/
theorem exists_readsPiece {source text rest left : Text} {token : DateToken}
    (h : readToken currentYear names source text token (r, rest) = .ok (r', left)) :
    ∃ piece, rest = piece ++ left ∧ ReadsPiece currentYear names r token piece r' := by
  cases token with
  | literal c =>
    obtain ⟨left', htake, heq⟩ := map_eq_ok_iff.mp h
    obtain ⟨rfl, rfl⟩ := Prod.mk.inj heq
    unfold takeChar at htake
    split at htake
    · rename_i d rest
      split at htake
      · rename_i hd
        obtain rfl := Except.ok.inj htake
        exact ⟨[c], by rw [hd]; rfl, .literal c⟩
      · cases htake
    · cases htake
  | field field count abuts =>
    unfold readToken at h
    simp only at h
    split at h
    · rename_i list hlist
      obtain ⟨⟨i, left'⟩, htake, heq⟩ := map_eq_ok_iff.mp h
      obtain ⟨rfl, rfl⟩ := Prod.mk.inj heq
      obtain ⟨name, rfl, hname⟩ := takeName_eq_ok htake
      exact ⟨name, rfl, .name hlist hname⟩
    · rename_i hlist
      obtain ⟨⟨n, left'⟩, htake, heq⟩ := map_eq_ok_iff.mp h
      obtain ⟨rfl, rfl⟩ := Prod.mk.inj heq
      obtain ⟨digits, rfl, hdigits, rfl⟩ := takeNumber_eq_ok htake
      exact ⟨digits, rfl, .number ((nameList?_eq_none_iff names).mp hlist) hdigits⟩
  | unknown letter => cases h

/-- **Reading along tokens cuts the text into pieces**, one for each token. -/
theorem exists_readAlong {source text rest left : Text} {tokens : List DateToken}
    (h : readTokens currentYear names source text tokens (r, rest) = .ok (r'', left)) :
    ∃ pieces, rest = pieces.flatten ++ left ∧ ReadAlong currentYear names r tokens pieces r'' := by
  induction tokens generalizing r rest with
  | nil =>
    obtain ⟨rfl, rfl⟩ := Prod.mk.inj (Except.ok.inj h)
    exact ⟨[], rfl, .nil r⟩
  | cons token tokens ih =>
    unfold readTokens at h
    split at h
    · rename_i state htoken
      obtain ⟨r', rest'⟩ := state
      obtain ⟨piece, rfl, hpiece⟩ := exists_readsPiece htoken
      obtain ⟨pieces, rfl, hpieces⟩ := ih h
      exact ⟨piece :: pieces, (List.append_assoc ..).symm, .cons hpiece hpieces⟩
    · cases h

/-! ## Section 2: What is noted -/

/-- Two readings are the same besides some fields. -/
structure Besides (fields : List DateField) (r r' : DateReading) : Prop where
  year : .year ∉ fields → r'.year = r.year
  month : .month ∉ fields → r'.month = r.month
  day : .day ∉ fields → r'.day = r.day
  hour : .hour ∉ fields → .hourFromOne ∉ fields → r'.hour = r.hour
  halfHour : .halfHour ∉ fields → .halfHourFromZero ∉ fields → r'.halfHour = r.halfHour
  afternoon : .dayPeriod ∉ fields → r'.afternoon = r.afternoon
  minute : .minute ∉ fields → r'.minute = r.minute
  second : .second ∉ fields → r'.second = r.second

theorem Besides.refl (r : DateReading) (fields : List DateField) : Besides fields r r := by
  constructor <;> intros <;> rfl

theorem Besides.trans {fields others : List DateField} (h : Besides fields r r')
    (h' : Besides others r' r'') : Besides (fields ++ others) r r'' := by
  constructor
  all_goals simp only [List.mem_append, not_or]
  · exact fun hf => (h'.year hf.2).trans (h.year hf.1)
  · exact fun hf => (h'.month hf.2).trans (h.month hf.1)
  · exact fun hf => (h'.day hf.2).trans (h.day hf.1)
  · exact fun hf hg => (h'.hour hf.2 hg.2).trans (h.hour hf.1 hg.1)
  · exact fun hf hg => (h'.halfHour hf.2 hg.2).trans (h.halfHour hf.1 hg.1)
  · exact fun hf => (h'.afternoon hf.2).trans (h.afternoon hf.1)
  · exact fun hf => (h'.minute hf.2).trans (h.minute hf.1)
  · exact fun hf => (h'.second hf.2).trans (h.second hf.1)

theorem besides_noteNumber (currentYear : Int) (r : DateReading) (count n : Nat)
    (field : DateField) : Besides [field] r (noteNumber currentYear r count n field) := by
  cases field with
  | year => by_cases h : count = 2 <;> constructor <;> simp [noteNumber, h]
  | _ => constructor <;> simp [noteNumber]

theorem besides_noteName (r : DateReading) (i : Nat) (field : DateField) :
    Besides [field] r (noteName r i field) := by
  cases field <;> constructor <;> simp [noteName]

theorem besides_of_readsPiece {token : DateToken} {piece : Text}
    (h : ReadsPiece currentYear names r token piece r') : Besides (fields [token]) r r' := by
  cases h with
  | literal c => exact Besides.refl r _
  | number _ _ => exact besides_noteNumber currentYear r _ _ _
  | name _ _ => exact besides_noteName r _ _

/-- **Only the fields of the tokens are noted.** -/
theorem besides_of_readAlong {tokens : List DateToken} {pieces : List Text}
    (h : ReadAlong currentYear names r tokens pieces r') : Besides (fields tokens) r r' := by
  induction h with
  | nil r => exact Besides.refl r _
  | @cons r r' r'' token tokens piece pieces hpiece _ ih =>
    have hfields : fields (token :: tokens) = fields [token] ++ fields tokens :=
      List.filterMap_append (l := [token])
    rw [hfields]
    exact (besides_of_readsPiece hpiece).trans ih

/-- The parts of a date and time that was read. -/
structure Resolved (r : DateReading) (v : DateTime) : Prop where
  year : v.date.year = r.year.getD 1970
  month : v.date.month = r.month.getD 1
  day : v.date.day = r.day.getD 1
  hour : v.time.hour = r.hourOfDay
  minute : v.time.minute = r.minute.getD 0
  second : v.time.second = r.second.getD 0

theorem resolved_of_resolve {v : DateTime} (h : r.resolve = some v) : Resolved r v := by
  unfold DateReading.resolve DateTime.ofParts? at h
  obtain ⟨date, hdate, h⟩ := Option.bind_eq_some_iff.mp h
  obtain ⟨time, htime, h⟩ := Option.bind_eq_some_iff.mp h
  obtain rfl := Option.some.inj h
  unfold Date.ofParts? at hdate
  unfold TimeOfDay.ofParts? at htime
  split at hdate
  · split at htime
    · obtain rfl := Option.some.inj hdate
      obtain rfl := Option.some.inj htime
      exact ⟨rfl, rfl, rfl, rfl, rfl, rfl⟩
    · cases htime
  · cases hdate

/-! ## Section 3: What is written again -/

/-- What is written for a token in place of the piece that was read for it. -/
inductive Rewritten (names : CalendarNames) : DateToken → Text → Text → Prop
  | same (token : DateToken) (piece : Text) : Rewritten names token piece piece
  /-- A number, up to zeros in front. -/
  | number {field : DateField} {count : Nat} {abuts : Bool} {piece piece' : Text}
      (hpiece : isNumeral piece = true) (hpiece' : isNumeral piece' = true)
      (hvalue : value piece' = value piece) :
      Rewritten names (.field field count abuts) piece piece'
  /-- An hour of the half day, up to dozens. -/
  | halfHour {count : Nat} {abuts : Bool} {piece piece' : Text}
      (hpiece : isNumeral piece = true) (hpiece' : isNumeral piece' = true)
      (hvalue : value piece' % 12 = value piece % 12) :
      Rewritten names (.field .halfHour count abuts) piece piece'
  /-- A year of two digits, up to hundreds. -/
  | shortYear {abuts : Bool} {piece piece' : Text}
      (hpiece : isNumeral piece = true) (hpiece' : isNumeral piece' = true)
      (hvalue : value piece' % 100 = value piece % 100) :
      Rewritten names (.field .year 2 abuts) piece piece'
  /-- The weekday of the date, whichever one was named. -/
  | weekday {count : Nat} {abuts : Bool} {list : List Text} {piece piece' : Text}
      (hlist : nameList? names count .weekday = some list) (hpiece : piece ∈ list)
      (hpiece' : piece' ∈ list) : Rewritten names (.field .weekday count abuts) piece piece'
  /-- A number that is too large for a year is not noted. -/
  | largeYear {count : Nat} {abuts : Bool} {piece piece' : Text} (hcount : count ≠ 2)
      (hpiece : isNumeral piece = true) (hvalue : maxReadYear < value piece) :
      Rewritten names (.field .year count abuts) piece piece'

theorem numeral_padded (count n : Nat) :
    isNumeral (padZeros count (numeral n)) = true ∧ value (padZeros count (numeral n)) = n := by
  obtain ⟨hnumeral, hvalue⟩ := isNumeral_padZeros count (isNumeral_numeral n)
  exact ⟨hnumeral, hvalue.trans (numeral_value n)⟩

/-- Different fields of which each has a place of its own. -/
structure Different (fields : List DateField) : Prop where
  nodup : fields.Nodup
  hourFromOne : .hourFromOne ∉ fields
  halfHourFromZero : .halfHourFromZero ∉ fields
  millisecond : .millisecond ∉ fields

theorem Different.tail {field : DateField} {others : List DateField}
    (h : Different (field :: others)) : Different others where
  nodup := (List.nodup_cons.mp h.nodup).2
  hourFromOne := fun hmem => h.hourFromOne (List.mem_cons_of_mem _ hmem)
  halfHourFromZero := fun hmem => h.halfHourFromZero (List.mem_cons_of_mem _ hmem)
  millisecond := fun hmem => h.millisecond (List.mem_cons_of_mem _ hmem)

/-- Fields that do not interfere: besides, no hour is said in two ways, and the half of the day only
together with an hour of it. -/
structure Independent (fields : List DateField) : Prop extends Different fields where
  hour : .hour ∈ fields → .halfHour ∉ fields
  dayPeriod : .dayPeriod ∈ fields → .halfHour ∈ fields

instance (fields : List DateField) : Decidable (Independent fields) :=
  decidable_of_iff (fields.Nodup ∧ .hourFromOne ∉ fields ∧ .halfHourFromZero ∉ fields ∧
      .millisecond ∉ fields ∧ (.hour ∈ fields → .halfHour ∉ fields) ∧
      (.dayPeriod ∈ fields → .halfHour ∈ fields))
    ⟨fun ⟨hnodup, hone, hzero, hmillisecond, hhour, hperiod⟩ =>
        ⟨⟨hnodup, hone, hzero, hmillisecond⟩, hhour, hperiod⟩,
      fun ⟨⟨hnodup, hone, hzero, hmillisecond⟩, hhour, hperiod⟩ =>
        ⟨hnodup, hone, hzero, hmillisecond, hhour, hperiod⟩⟩

/-- What is known of the half day at the end of a reading along some fields. -/
structure HalfDay (fields : List DateField) (r : DateReading) : Prop where
  hour : .hour ∈ fields → r.halfHour = none
  dayPeriod : .dayPeriod ∈ fields → ∃ h < 12, r.halfHour = some h

theorem HalfDay.tail {field : DateField} {others : List DateField}
    (h : HalfDay (field :: others) r) : HalfDay others r where
  hour := fun hmem => h.hour (List.mem_cons_of_mem _ hmem)
  dayPeriod := fun hmem => h.dayPeriod (List.mem_cons_of_mem _ hmem)

section

variable {v : DateTime} {field : DateField} {count : Nat} {abuts : Bool} {digits : Text}
  {others : List DateField}

theorem formatField_of_ne_year (v : DateTime) (names : CalendarNames)
    (h : isNumeric count field = true) (hne : field ≠ .year) :
    formatField v names count field = padZeros count (numeral (fieldNumber v count field)) := by
  cases field with
  | year => exact absurd rfl hne
  | month =>
    have hcount : count < 3 := of_decide_eq_true h
    show (if 4 ≤ count then _ else if count = 3 then _ else _) = _
    rw [if_neg (by omega), if_neg (by omega)]
    rfl
  | weekday => cases h
  | dayPeriod => cases h
  | _ => rfl

/-- A number that is written again as it was read. -/
theorem rewritten_of_fieldNumber (names : CalendarNames) (hnumeric : isNumeric count field = true)
    (hne : field ≠ .year) (hdigits : isNumeral digits = true)
    (hvalue : fieldNumber v count field = value digits) :
    Rewritten names (.field field count abuts) digits (formatField v names count field) := by
  obtain ⟨hnumeral, hpadded⟩ := numeral_padded count (fieldNumber v count field)
  rw [formatField_of_ne_year v names hnumeric hne]
  exact .number hdigits hnumeral (hpadded.trans hvalue)

/-- **A year** is written again as it was read, up to hundreds if it has two digits. -/
theorem rewritten_of_year (names : CalendarNames) (hdigits : isNumeral digits = true)
    (hyear : v.date.year =
      (noteNumber currentYear r count (value digits) .year).year.getD 1970) :
    Rewritten names (.field .year count abuts) digits (formatField v names count .year) := by
  by_cases hcount : count = 2
  · subst hcount
    obtain ⟨-, -, hmod⟩ := expandYear_range currentYear (value digits)
    obtain ⟨hnumeral, hpadded⟩ := numeral_padded 2 (v.date.year % 100).toNat
    have hread : v.date.year = expandYear currentYear (value digits) := hyear
    refine .shortYear hdigits hnumeral ?_
    show value (padZeros 2 (numeral (v.date.year % 100).toNat)) % 100 = _
    rw [hpadded, hread]
    omega
  · simp only [noteNumber, if_neg hcount] at hyear
    by_cases hlarge : value digits ≤ maxReadYear
    · rw [if_pos hlarge, Option.getD_some] at hyear
      have hnonneg : 0 ≤ v.date.year := by omega
      obtain ⟨hnumeral, hpadded⟩ := numeral_padded count v.date.year.toNat
      have hnumber : fieldNumber v count .year = v.date.year.toNat := if_neg hcount
      rw [formatField_of_isNumeric hnonneg names rfl, hnumber]
      exact .number hdigits hnumeral (by omega)
    · exact .largeYear hcount hdigits (by omega)

theorem hourOfDay_of_halfHour {h : Nat} (hhalf : r.halfHour = some h) :
    r.hourOfDay = h + if r.afternoon = some true then 12 else 0 := by
  unfold DateReading.hourOfDay
  rw [hhalf]

/-- **A number** is written again as it was read, if no later field is noted in its place. -/
theorem rewritten_of_number (hnumeric : isNumeric count field = true)
    (hdigits : isNumeral digits = true)
    (hlater : Besides others (noteNumber currentYear r count (value digits) field) r'')
    (hresolved : Resolved r'' v) (hhalfDay : HalfDay (field :: others) r'')
    (hapart : Different (field :: others)) :
    Rewritten names (.field field count abuts) digits (formatField v names count field) := by
  have hfresh : field ∉ others := (List.nodup_cons.mp hapart.nodup).1
  cases field with
  | year =>
    apply rewritten_of_year names hdigits
    rw [hresolved.year, hlater.year hfresh]
  | month =>
    apply rewritten_of_fieldNumber names hnumeric (by decide) hdigits
    show v.date.month = _
    rw [hresolved.month, hlater.month hfresh]
    rfl
  | day =>
    apply rewritten_of_fieldNumber names hnumeric (by decide) hdigits
    show v.date.day = _
    rw [hresolved.day, hlater.day hfresh]
    rfl
  | hour =>
    apply rewritten_of_fieldNumber names hnumeric (by decide) hdigits
    show v.time.hour = _
    have hnone := hhalfDay.hour List.mem_cons_self
    rw [hresolved.hour, DateReading.hourOfDay, hnone, hlater.hour hfresh hapart.tail.hourFromOne]
    rfl
  | halfHour =>
    have hhalf : r''.halfHour = some (value digits % 12) :=
      hlater.halfHour hfresh hapart.tail.halfHourFromZero
    have hhour := hresolved.hour
    rw [hourOfDay_of_halfHour hhalf] at hhour
    obtain ⟨hnumeral, hpadded⟩ := numeral_padded count (fieldNumber v count .halfHour)
    rw [formatField_of_ne_year v names hnumeric (by decide)]
    refine .halfHour hdigits hnumeral ?_
    rw [hpadded]
    show (if v.time.hour % 12 = 0 then 12 else v.time.hour % 12) % 12 = _
    split at hhour <;> split <;> omega
  | minute =>
    apply rewritten_of_fieldNumber names hnumeric (by decide) hdigits
    show v.time.minute = _
    rw [hresolved.minute, hlater.minute hfresh]
    rfl
  | second =>
    apply rewritten_of_fieldNumber names hnumeric (by decide) hdigits
    show v.time.second = _
    rw [hresolved.second, hlater.second hfresh]
    rfl
  | hourFromOne => exact absurd List.mem_cons_self hapart.hourFromOne
  | halfHourFromZero => exact absurd List.mem_cons_self hapart.halfHourFromZero
  | millisecond => exact absurd List.mem_cons_self hapart.millisecond
  | weekday => cases hnumeric
  | dayPeriod => cases hnumeric

/-- **A name** is written again as it was read, besides that of a weekday. -/
theorem rewritten_of_name (hnames : names.AreRecognizable) {list : List Text} {i : Nat}
    {name : Text} (hlist : nameList? names count field = some list) (hname : list[i]? = some name)
    (hlater : Besides others (noteName r i field) r'') (hresolved : Resolved r'' v)
    (hhalfDay : HalfDay (field :: others) r'') (hfresh : field ∉ others) :
    Rewritten names (.field field count abuts) name (formatField v names count field) := by
  have hwritten := formatField_of_nameList? v hlist
  have hkept : fieldPlace v field = i →
      Rewritten names (.field field count abuts) name (formatField v names count field) := by
    intro hplace
    rw [hwritten, hplace, nameAt, List.getD_eq_getElem?_getD, hname]
    exact .same _ _
  cases field with
  | month =>
    apply hkept
    show v.date.month - 1 = i
    rw [hresolved.month, hlater.month hfresh]
    rfl
  | weekday =>
    obtain ⟨-, hplace⟩ := getElem?_fieldPlace v hnames hlist
    rw [hwritten]
    exact .weekday hlist (List.mem_of_getElem? hname) (List.mem_of_getElem? hplace)
  | dayPeriod =>
    apply hkept
    obtain ⟨h, hlt, hhalf⟩ := hhalfDay.dayPeriod List.mem_cons_self
    have hafternoon : r''.afternoon = some (i == 1) := hlater.afternoon hfresh
    have hhour := hresolved.hour
    rw [hourOfDay_of_halfHour hhalf, hafternoon] at hhour
    -- there are two names, that of the morning and that of the afternoon
    have htwo : i < 2 := by
      obtain rfl : names.dayPeriods = list := Option.some.inj hlist
      rw [← hnames.dayPeriods.length_eq]
      exact (List.getElem?_eq_some_iff.mp hname).1
    show (if 12 ≤ v.time.hour then 1 else 0) = i
    obtain rfl | rfl : i = 0 ∨ i = 1 := by omega
    · rw [if_neg (by decide)] at hhour
      rw [if_neg (by omega)]
    · rw [if_pos (by decide)] at hhour
      rw [if_pos (by omega)]
  | _ => cases hlist

/-- **The pieces of a text and what is written for them**, token by token. -/
theorem rewritten_of_readAlong (hnames : names.AreRecognizable) {tokens : List DateToken}
    {pieces : List Text} (h : ReadAlong currentYear names r tokens pieces r'')
    (hresolved : Resolved r'' v) (hdifferent : Different (fields tokens))
    (hhalfDay : HalfDay (fields tokens) r'') :
    List.Forall₂ (fun token piece => Rewritten names token piece (formatToken v names token))
      tokens pieces := by
  -- a field is noted by one token, and the tokens after it leave its place alone
  induction h with
  | nil r => exact .nil
  | @cons r r' r'' token tokens piece pieces hpiece hpieces ih =>
    have hlater := besides_of_readAlong hpieces
    cases hpiece with
    | literal c => exact .cons (.same _ _) (ih hresolved hdifferent hhalfDay)
    | number hnumeric hdigits =>
      refine .cons ?_ (ih hresolved hdifferent.tail hhalfDay.tail)
      exact rewritten_of_number hnumeric hdigits hlater hresolved hhalfDay hdifferent
    | name hlist hname =>
      refine .cons ?_ (ih hresolved hdifferent.tail hhalfDay.tail)
      exact rewritten_of_name hnames hlist hname hlater hresolved hhalfDay
        (List.nodup_cons.mp hdifferent.nodup).1

/-- An hour of the half day that is asked for is noted below twelve. -/
theorem exists_halfHour {tokens : List DateToken} {pieces : List Text}
    (h : ReadAlong currentYear names r tokens pieces r'') (hdifferent : Different (fields tokens))
    (hmem : .halfHour ∈ fields tokens) : ∃ h < 12, r''.halfHour = some h := by
  induction h with
  | nil r => cases hmem
  | @cons r r' r'' token tokens piece pieces hpiece hpieces ih =>
    have hlater := besides_of_readAlong hpieces
    cases hpiece with
    | literal c => exact ih hdifferent hmem
    | @number field count abuts digits hnumeric hdigits =>
      obtain heq | hmem := List.mem_cons.mp hmem
      · subst heq
        have hfresh := (List.nodup_cons.mp hdifferent.nodup).1
        exact ⟨_, Nat.mod_lt _ (by decide),
          hlater.halfHour hfresh hdifferent.tail.halfHourFromZero⟩
      · exact ih hdifferent.tail hmem
    | @name field count abuts list i name hlist hname =>
      obtain heq | hmem := List.mem_cons.mp hmem
      · subst heq
        cases hlist
      · exact ih hdifferent.tail hmem

/-- **What a date that is read says of its text**: the text falls into one piece for each token of
the pattern, and the date is written with the same pieces, up to what reading does not keep. -/
theorem exists_pieces_of_read {p : DatePattern} (hnames : names.AreRecognizable)
    (hindependent : Independent (fields p.tokens)) {text : Text}
    (h : p.read currentYear names text = .ok v) :
    ∃ pieces, text = pieces.flatten ∧ p.format v names = .ok (written v names p.tokens) ∧
      List.Forall₂ (fun token piece => Rewritten names token piece (formatToken v names token))
        p.tokens pieces := by
  have hfault : p.fault? = none := by
    cases hfault : p.fault? with
    | none => rfl
    | some reason =>
      obtain ⟨e, he⟩ := read_of_fault hfault currentYear names text
      cases he.symm.trans h
  unfold read at h
  obtain ⟨⟨r, rest⟩, htokens, h⟩ := bind_eq_ok_iff.mp h
  simp only at h
  split_ifs at h with hquote hrest
  rw [not_not] at hrest
  subst hrest
  obtain ⟨pieces, rfl, hpieces⟩ := exists_readAlong htokens
  split at h
  swap
  · cases h
  rename_i v' hv
  obtain rfl := Except.ok.inj h
  have hbesides := besides_of_readAlong hpieces
  have hhalfDay : HalfDay (fields p.tokens) r := by
    constructor
    · intro hhour
      exact hbesides.halfHour (hindependent.hour hhour) hindependent.halfHourFromZero
    · intro hperiod
      exact exists_halfHour hpieces hindependent.toDifferent (hindependent.dayPeriod hperiod)
  refine ⟨pieces, List.append_nil _, ?_, ?_⟩
  · unfold format
    rw [hfault]
    rfl
  · exact rewritten_of_readAlong hnames hpieces (resolved_of_resolve hv) hindependent.toDifferent
      hhalfDay

end

end

end DatePattern

/-! ## Section 4: Named styles -/

namespace DateStyle

open DatePattern

/-- A pattern whose fields do not interfere. -/
def isIndependent (p : DatePattern) : Bool := Independent (fields p.tokens)

theorem isIndependent_datePatterns (tag : LocaleTag) :
    OfDatePatterns isIndependent (datePatterns tag) := by
  unfold datePatterns
  repeat
    refine ofDatePatterns_ite (ofDatePatterns_ofList ?_ ?_ ?_ ?_) ?_
    iterate 4
      · decide +kernel
  exact ofDatePatterns_ofList (by decide +kernel) (by decide +kernel) (by decide +kernel)
    (by decide +kernel)

theorem isIndependent_timePatterns (tag : LocaleTag) :
    OfTimePatterns (fun _ => isIndependent) (timePatterns tag) := by
  unfold timePatterns
  split_ifs <;> exact ofTimePatterns_ofList (by decide +kernel) (by decide +kernel)

/-- **The fields of a named style do not interfere.** -/
theorem independent_toPattern {style : DateStyle} (h : ∀ source, style ≠ .pattern source)
    (part : DatePart) (tag : LocaleTag) :
    Independent (fields (style.toPattern part tag).tokens) := by
  have hcheck : isIndependent (style.toPattern part tag) = true := by
    cases part with
    | date => exact toPattern_date (isIndependent_datePatterns tag) h
    | time => exact toPattern_time (isIndependent_timePatterns tag) h
  exact of_decide_eq_true hcheck

end DateStyle

namespace DateTime

open DatePattern

/-- **What a date or a time that is read in a named style says of its text.** The text falls into
one piece for each token of the pattern, and what is read is written with the same pieces: numbers
up to zeros in front, a weekday as that of the date, an hour of the half day up to dozens, and a
year of two digits up to hundreds. Only of a year above the highest one that is noted nothing is
said. -/
theorem exists_pieces_of_named_style {currentYear : Int} {part : DatePart} {style : DateStyle}
    {tag : LocaleTag} {text : Text} {v : DateTime} (hstyle : ∀ source, style ≠ .pattern source)
    (h : DateTime.read currentYear part style tag text = .ok v) :
    ∃ pieces, text = pieces.flatten ∧
      v.format part style tag =
        .ok (written v (CalendarNames.ofLocale tag) (style.toPattern part tag).tokens) ∧
      List.Forall₂ (fun token piece =>
          Rewritten (CalendarNames.ofLocale tag) token piece
            (formatToken v (CalendarNames.ofLocale tag) token))
        (style.toPattern part tag).tokens pieces :=
  exists_pieces_of_read (CalendarNames.areRecognizable_ofLocale tag)
    (DateStyle.independent_toPattern hstyle part tag) h

/-- A Saturday that is named a Friday is read, and written as a Saturday. -/
theorem exists_pieces_of_named_style_weekday :
    let en : LocaleTag := ⟨"en".toList, none, some "US".toList, []⟩
    let v : DateTime := .ofDate ⟨2024, 3, 9, by decide, by decide⟩
    (∀ source, DateStyle.full ≠ .pattern source) ∧
      DateTime.read 2024 .date .full en "Friday, March 09, 2024".toList = .ok v ∧
      v.format .date .full en = .ok "Saturday, March 9, 2024".toList ∧
      ∃ pieces, "Friday, March 09, 2024".toList = pieces.flatten ∧
        List.Forall₂ (fun token piece =>
            Rewritten (CalendarNames.ofLocale en) token piece
              (formatToken v (CalendarNames.ofLocale en) token))
          (DateStyle.full.toPattern .date en).tokens pieces := by
  intro en v
  have hstyle : ∀ source, DateStyle.full ≠ .pattern source := by simp
  have hread : DateTime.read 2024 .date .full en "Friday, March 09, 2024".toList = .ok v := by
    decide +kernel
  obtain ⟨pieces, htext, -, hpieces⟩ := exists_pieces_of_named_style hstyle hread
  exact ⟨hstyle, hread, by decide +kernel, pieces, htext, hpieces⟩

/-- Texts that are read as a date or a time that is written in another way: with the wrong weekday,
an hour that the clock does not have, and a year of four digits in place of two. -/
theorem read_of_other_texts :
    let en : LocaleTag := ⟨"en".toList, none, some "US".toList, []⟩
    let v : DateTime := .ofDate ⟨2024, 3, 9, by decide, by decide⟩
    let w : DateTime := ⟨⟨1970, 1, 1, by decide, by decide⟩,
      ⟨13, 5, 0, 0, by decide, by decide, by decide, by decide⟩⟩
    (DateTime.read 2024 .date .full en "Friday, March 9, 2024".toList = .ok v ∧
        v.format .date .full en = .ok "Saturday, March 9, 2024".toList) ∧
      (DateTime.read 2024 .time .short en "13:05 PM".toList = .ok w ∧
        w.format .time .short en = .ok "1:05 PM".toList) ∧
      DateTime.read 2024 .date .short en "3/9/1924".toList = .ok v ∧
        v.format .date .short en = .ok "3/9/24".toList := by
  decide +kernel

end DateTime

end MessageCatalog
