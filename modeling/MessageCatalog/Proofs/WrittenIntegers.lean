import MessageCatalog.Number.Style
import MessageCatalog.Proofs.TemplateScanner

/-!
# Written integers

An integer is written as its digits in groups, with a sign before them and, as a percentage, a sign
after them. Reading drops whatever is no digit and takes the digits for the magnitude. The magnitude
is an integer only below `2 ^ 63`, before the sign is looked at, so the least integer of 64 bits
comes back as a double.

## Main statements

* `format_int` : the text of an integer is its digits in groups, with its sign before them
* `parse_of_body` : a text is read as the digits that are left of it
* `parse_format_int` : what the text of an integer is read as
-/

namespace MessageCatalog

open Text

/-! ## Section 1: Texts -/

namespace Text

/-- A text that begins and ends with something else than a blank has no blanks to drop. -/
theorem trim_of_ends {t : Text} (hhead : ∀ c ∈ t.head?, isBlank c = false)
    (hlast : ∀ c ∈ t.getLast?, isBlank c = false) : trim t = t := by
  -- the same fact serves both ends
  have hdrop : ∀ {l : Text}, (∀ c ∈ l.head?, isBlank c = false) → l.dropWhile isBlank = l := by
    intro l hl
    cases l with
    | nil => rfl
    | cons c rest => exact List.dropWhile_cons_of_neg (by simp [hl c rfl])
  have hback : t.reverse.dropWhile isBlank = t.reverse := by
    apply hdrop
    rwa [List.head?_reverse]
  rw [trim, trimLeft, hdrop hhead, trimRight, hback, List.reverse_reverse]

end Text

/-! ## Section 2: The symbols of locales -/

namespace Symbols

/-- The decimal and the grouping characters there are. -/
def separatorPairs : List (Char × Char) :=
  [('.', '\u2019'), (',', narrowNoBreakSpace), (',', noBreakSpace), (',', '.'), ('.', ',')]

theorem separators_mem (tag : LocaleTag) : separators tag ∈ separatorPairs := by
  unfold separators
  repeat' split
  all_goals decide

theorem decimal_not_digit (tag : LocaleTag) : (ofLocale tag).decimal.isDigit = false := by
  have hall : ∀ pair ∈ separatorPairs, pair.1.isDigit = false := by decide
  exact hall _ (separators_mem tag)

theorem grouping_not_digit (tag : LocaleTag) : (ofLocale tag).grouping.isDigit = false := by
  have hall : ∀ pair ∈ separatorPairs, pair.2.isDigit = false := by decide
  exact hall _ (separators_mem tag)

theorem grouping_ne_minus (tag : LocaleTag) : (ofLocale tag).grouping ≠ '-' := by
  have hall : ∀ pair ∈ separatorPairs, pair.2 ≠ '-' := by decide
  exact hall _ (separators_mem tag)

/-- Before a percent sign stands nothing or a space that does not break. -/
theorem percentSeparator_mem (tag : LocaleTag) :
    ∀ c ∈ (ofLocale tag).percentSeparator, c = noBreakSpace ∨ c = narrowNoBreakSpace := by
  show ∀ c ∈ percentGap tag, _
  unfold percentGap
  split
  · simp
  · split <;> simp

end Symbols

namespace Number

section

variable {digits body text : Text} {tag : LocaleTag} {negative : Bool} {c : Char}
  {style : NumberStyle}

/-! ## Section 3: Groups -/

theorem head?_group (size : Nat) (separator : Char) (digits : Text) :
    (group size separator digits).head? = digits.head? := by
  cases digits with
  | nil => rfl
  | cons c cs =>
    unfold group
    split <;> rfl

/-- Groups end with the last digit. -/
theorem getLast?_group (size : Nat) (separator : Char) (digits : Text) :
    (group size separator digits).getLast? = digits.getLast? := by
  induction digits with
  | nil => rfl
  | cons c cs ih =>
    unfold group
    split
    · rename_i h
      have hne : group size separator cs ≠ [] := by
        intro hnil
        have hhead := head?_group size separator cs
        rw [hnil] at hhead
        exact h.1 (List.head?_eq_none_iff.mp hhead.symm)
      rw [List.getLast?_cons_of_ne_nil (by simp), List.getLast?_cons_of_ne_nil hne, ih,
        List.getLast?_cons_of_ne_nil h.1]
    · rw [List.getLast?_cons, List.getLast?_cons, ih]

/-- Digits are no fillers. -/
theorem isFiller_of_isDigit (tag : LocaleTag) (h : c.isDigit = true) :
    isFiller (Symbols.ofLocale tag) c = false := by
  have hne : ∀ d : Char, d.isDigit = false → (c == d) = false := by
    intro d hd
    rw [beq_eq_false_iff_ne]
    rintro rfl
    cases h.symm.trans hd
  unfold isFiller
  rw [hne _ (Symbols.grouping_not_digit tag), hne _ (by decide), hne _ (by decide),
    hne _ (by decide)]
  rfl

theorem isFiller_minus (tag : LocaleTag) : isFiller (Symbols.ofLocale tag) '-' = false := by
  have hgrouping : ('-' == (Symbols.ofLocale tag).grouping) = false :=
    beq_eq_false_iff_ne.mpr (Symbols.grouping_ne_minus tag).symm
  unfold isFiller
  rw [hgrouping]
  decide

/-- What is left of grouped digits and their sign when the grouping character is dropped, and no
digit and no sign is. -/
theorem filter_sign_group {keep : Char → Bool} {separator : Char} (hminus : keep '-' = true)
    (hdigit : ∀ c, c.isDigit = true → keep c = true) (hseparator : keep separator = false)
    (negative : Bool) (size : Nat) (h : digits.all Char.isDigit = true) :
    (sign negative ++ group size separator digits).filter keep = sign negative ++ digits := by
  have hall := List.all_eq_true.mp h
  have hsign : (sign negative).filter keep = sign negative := by
    cases negative with
    | false => rfl
    | true => exact List.filter_cons_of_pos hminus
  have hkept : digits.filter keep = digits :=
    List.filter_eq_self.mpr fun c hc => hdigit c (hall c hc)
  have habsent : separator ∉ digits := by
    intro hmem
    cases (hdigit separator (hall separator hmem)).symm.trans hseparator
  -- the grouping character is dropped in any case, so it may be dropped first
  have hfirst : keep = fun c => keep c && c != separator := by
    funext c
    by_cases hc : c = separator
    · simp [hc, hseparator]
    · simp [hc]
  have hgroup : (group size separator digits).filter keep = digits := by
    rw [hfirst, ← List.filter_filter, filter_group habsent, hkept]
  rw [List.filter_append, hsign, hgroup]

/-! ## Section 4: Reading digits -/

/-- A row of digits is no text that holds something else. -/
theorem ne_of_isNumeral (h : isNumeral digits = true) (hother : ∃ c ∈ body, c.isDigit = false) :
    digits ≠ body := by
  rintro rfl
  obtain ⟨c, hc, hdigit⟩ := hother
  have hall := (Bool.and_eq_true_iff.mp h).2
  cases (List.all_eq_true.mp hall c hc).symm.trans hdigit

/-- A row of digits is well formed, and holds no decimal character. -/
theorem wellFormed_of_isNumeral (h : isNumeral digits = true) : wellFormed digits = true := by
  obtain ⟨hne, hall⟩ := Bool.and_eq_true_iff.mp h
  have hdigit := List.all_eq_true.mp hall
  obtain ⟨c, rest, rfl⟩ : ∃ c rest, digits = c :: rest := by
    cases digits with
    | nil => cases hne
    | cons c rest => exact ⟨c, rest, rfl⟩
  have hpoint : '.' ∉ c :: rest := fun hmem => by cases hdigit _ hmem
  unfold wellFormed
  rw [List.count_eq_zero_of_not_mem hpoint, List.any_cons, hdigit c List.mem_cons_self]
  simp only [Bool.true_or, Bool.true_and, Nat.zero_le, decide_true, Bool.and_true]
  rw [List.all_eq_true]
  intro d hd
  rw [hdigit d hd]
  rfl

/-- **A text is read as the digits that are left of it, with their sign.** -/
theorem parse_of_body (h : isNumeral digits = true)
    (hbody : (stripStyle style (Symbols.ofLocale tag) (trim text)).filter
      (fun c => !isFiller (Symbols.ofLocale tag) c) = sign negative ++ digits) :
    parse text style (Symbols.ofLocale tag) =
      .ok ((ofDigits negative digits).unscale (factorOf style)) := by
  have hminus : ∀ rest, digits = '-' :: rest → False := fun rest =>
    ne_of_isNumeral h ⟨'-', List.mem_cons_self, by decide⟩
  have hdecimal : digits.map (fun c => if c = (Symbols.ofLocale tag).decimal then '.' else c) =
      digits := by
    have hid : digits.map id = digits := List.map_id digits
    rw [← hid, List.map_map]
    apply List.map_congr_left
    intro c hc
    have hdigit := List.all_eq_true.mp (Bool.and_eq_true_iff.mp h).2 c hc
    apply if_neg
    rintro rfl
    cases hdigit.symm.trans (Symbols.decimal_not_digit tag)
  have hword : digits ≠ "NaN".toList := ne_of_isNumeral h ⟨'N', by decide, by decide⟩
  have hsymbol : digits ≠ ['∞'] := ne_of_isNumeral h ⟨'∞', by decide, by decide⟩
  unfold parse
  simp only [hbody]
  -- the sign is told from the digits, none of which is a minus sign
  cases negative with
  | true =>
    simp only [sign, if_true, List.cons_append, List.nil_append]
    rw [if_neg hword, if_neg hsymbol, hdecimal, if_pos (wellFormed_of_isNumeral h)]
  | false =>
    simp only [sign, Bool.false_eq_true, if_false, List.nil_append]
    rw [if_neg hword, if_neg hsymbol, hdecimal, if_pos (wellFormed_of_isNumeral h)]

/-- Digits are read as an integer below `2 ^ 63`. -/
theorem ofDigits_numeral {n : Nat} (negative : Bool) (h : n < 2 ^ 63) :
    ofDigits negative (numeral n) = int (Int64.ofInt (if negative then -n else n)) := by
  have hpoint : '.' ∉ numeral n := fun hmem => by cases isDigit_of_mem_numeral hmem
  unfold ofDigits
  simp only
  rw [if_neg hpoint, numeral_value, if_pos (by omega)]

/-- The magnitude `2 ^ 63` is read as a double. -/
theorem ofDigits_two_pow : ofDigits true (numeral (2 ^ 63)) = float (-9223372036854775808) := by
  decide +kernel

/-- The magnitude and the sign of an integer are read as the integer, unless it is the least one. -/
theorem ofDigits_int {w : Int64} (h : w ≠ Int64.minValue) :
    ofDigits (decide (w.toInt < 0)) (numeral w.toInt.natAbs) = int w := by
  have hlower := w.le_toInt
  have hupper := w.toInt_lt
  have hleast : w.toInt ≠ -2 ^ 63 := fun heq => h (Int64.toInt_inj.mp heq)
  rw [ofDigits_numeral _ (by omega)]
  congr 1
  have hvalue : (if decide (w.toInt < 0) = true then -(w.toInt.natAbs : Int)
      else w.toInt.natAbs) = w.toInt := by
    simp only [decide_eq_true_iff]
    split <;> omega
  rw [hvalue, Int64.ofInt_toInt]

theorem unscale_one (n : Number) : unscale n 1 = n := if_pos rfl

/-- Scaling an integer is undone by the same factor. -/
theorem unscale_int {i product : Int64} {factor : Int} (hfactor : factor ≠ 0)
    (h : i.toInt * factor = product.toInt) : unscale (int product) factor = int i := by
  by_cases hone : factor = 1
  · rw [hone, Int.mul_one] at h
    rw [hone, unscale_one, Int64.toInt_inj.mp h]
  · unfold unscale
    rw [if_neg hone]
    simp only
    rw [← h, if_pos (Int.mul_emod_left i.toInt factor), Int.mul_ediv_cancel _ hfactor,
      Int64.ofInt_toInt]

/-! ## Section 5: The text of an integer -/

/-- The digits of a natural number fill the whole places. -/
theorem fitWhole_numeral (n : Nat) : fitWhole 1 (numeral n) [] = numeral n := by
  have hlength : 1 ≤ (numeral n).length := List.length_pos_iff.mpr Nat.toDigits_ne_nil
  show List.replicate (1 - (numeral n).length) '0' ++ numeral n = numeral n
  rw [Nat.sub_eq_zero_of_le hlength]
  rfl

theorem eq_zero_of_numeral {n : Nat} (h : (numeral n).all (· == '0') = true) : n = 0 := by
  have hzeros : numeral n = List.replicate (numeral n).length '0' :=
    List.eq_replicate_of_mem fun c hc => beq_iff_eq.mp (List.all_eq_true.mp h c hc)
  rw [← numeral_value n, hzeros]
  simp [value, Nat.ofDigitChars_replicate_zero]

/-- **The digits of an integer are grouped, and a negative one has a minus sign.** -/
theorem digits_int (i : Int64) {layout : Layout} (hlayout : layout = .standard ∨ layout = .whole)
    (symbols : Symbols) :
    Number.digits (int i) layout symbols =
      (decide (i.toInt < 0), group 3 symbols.grouping (numeral i.toInt.natAbs)) := by
  have hlayOut : Number.digits (int i) layout symbols =
      (decide (i.toInt < 0) && !((fitWhole 1 (numeral i.toInt.natAbs) []).all (· == '0') && true),
        group 3 symbols.grouping (fitWhole 1 (numeral i.toInt.natAbs) [])) := by
    obtain rfl | rfl := hlayout
    · rfl
    · rfl
  rw [hlayOut, fitWhole_numeral, Bool.and_true]
  congr 1
  cases hzero : (numeral i.toInt.natAbs).all (· == '0') with
  | false => rw [Bool.not_false, Bool.and_true]
  | true =>
    -- only zero is written without a digit that counts, and it is not negative
    have := eq_zero_of_numeral hzero
    rw [Bool.not_true, Bool.and_false, eq_comm, decide_eq_false_iff_not]
    omega

/-- What the default, the integer and the percent style put after the digits of an integer. -/
def suffix (style : NumberStyle) (symbols : Symbols) : Text :=
  match style with
  | .percent => symbols.percentSeparator.toList ++ ['%']
  | _ => []

/-- **The text of an integer is its digits in groups, with the sign before them.** -/
theorem format_int {i product : Int64}
    (hstyle : style = .standard ∨ style = .integer ∨ style = .percent)
    (hproduct : i.toInt * factorOf style = product.toInt) (symbols : Symbols) :
    format (int i) style symbols =
      sign (decide (product.toInt < 0)) ++
        group 3 symbols.grouping (numeral product.toInt.natAbs) ++ suffix style symbols := by
  obtain rfl | rfl | rfl := hstyle
  · obtain rfl : i = product := Int64.toInt_inj.mp ((Int.mul_one _).symm.trans hproduct)
    rw [format, digits_int i (.inl rfl)]
    exact (List.append_nil _).symm
  · obtain rfl : i = product := Int64.toInt_inj.mp ((Int.mul_one _).symm.trans hproduct)
    rw [format, digits_int i (.inr rfl)]
    exact (List.append_nil _).symm
  · have hscale : scale (int i) 100 = int product := scale_int hproduct
    rw [format, hscale, digits_int product (.inr rfl)]
    exact List.append_assoc ..

/-- An integer and what a style scales it to are the least one together. -/
theorem eq_minValue_iff {i product : Int64}
    (hstyle : style = .standard ∨ style = .integer ∨ style = .percent)
    (hproduct : i.toInt * factorOf style = product.toInt) :
    product = Int64.minValue ↔ i = Int64.minValue := by
  obtain rfl | rfl | rfl := hstyle
  · obtain rfl : i = product := Int64.toInt_inj.mp ((Int.mul_one _).symm.trans hproduct)
    exact Iff.rfl
  · obtain rfl : i = product := Int64.toInt_inj.mp ((Int.mul_one _).symm.trans hproduct)
    exact Iff.rfl
  · -- it is no multiple of a hundred, and a hundredfold of it is out of range
    have hlower := product.le_toInt
    change i.toInt * 100 = _ at hproduct
    rw [← Int64.toInt_inj, ← Int64.toInt_inj, Int64.toInt_minValue]
    omega

/-- The text of an integer has no blanks at its ends. -/
theorem trim_text (negative : Bool) (n : Nat) (style : NumberStyle) (symbols : Symbols) :
    trim (sign negative ++ group 3 symbols.grouping (numeral n) ++ suffix style symbols) =
      sign negative ++ group 3 symbols.grouping (numeral n) ++ suffix style symbols := by
  have hne : numeral n ≠ [] := Nat.toDigits_ne_nil
  have hblank : ∀ c ∈ numeral n, isBlank c = false := fun c hc =>
    isBlank_of_isDigit (isDigit_of_mem_numeral hc)
  apply trim_of_ends
  · -- the first character is the minus sign or the first digit
    intro c hc
    rw [List.append_assoc, List.head?_append, List.head?_append, head?_group,
      List.head?_eq_some_head hne] at hc
    cases negative with
    | true =>
      obtain rfl : '-' = c := Option.some.inj hc
      decide
    | false =>
      obtain rfl : (numeral n).head hne = c := Option.some.inj hc
      exact hblank _ (List.head_mem hne)
  · -- the last one is the last digit or a percent sign
    intro c hc
    rw [List.getLast?_append, List.getLast?_append, getLast?_group,
      List.getLast?_eq_some_getLast hne] at hc
    obtain hnil | hpercent : suffix style symbols = [] ∨
        (suffix style symbols).getLast? = some '%' := by
      cases style with
      | percent => exact .inr (List.getLast?_concat ..)
      | standard => exact .inl rfl
      | integer => exact .inl rfl
      | currency => exact .inl rfl
      | pattern p => exact .inl rfl
    · rw [hnil] at hc
      obtain rfl : (numeral n).getLast hne = c := Option.some.inj hc
      exact hblank _ (List.getLast_mem hne)
    · rw [hpercent] at hc
      obtain rfl : '%' = c := Option.some.inj hc
      decide

/-- **What is left of the text of an integer**: its digits and its sign. -/
theorem body_text (tag : LocaleTag) (negative : Bool) (n : Nat)
    (hstyle : style = .standard ∨ style = .integer ∨ style = .percent) :
    (stripStyle style (Symbols.ofLocale tag)
        (sign negative ++ group 3 (Symbols.ofLocale tag).grouping (numeral n) ++
          suffix style (Symbols.ofLocale tag))).filter
      (fun c => !isFiller (Symbols.ofLocale tag) c) = sign negative ++ numeral n := by
  have hdigits : (numeral n).all Char.isDigit = true :=
    List.all_eq_true.mpr fun c hc => isDigit_of_mem_numeral hc
  have hgrouping : isFiller (Symbols.ofLocale tag) (Symbols.ofLocale tag).grouping = true := by
    simp [isFiller]
  have hdigit : ∀ c, c.isDigit = true → (!isFiller (Symbols.ofLocale tag) c) = true := by
    intro c hc
    rw [isFiller_of_isDigit tag hc]
    rfl
  have hminus : (!isFiller (Symbols.ofLocale tag) '-') = true := by
    rw [isFiller_minus]
    rfl
  have hplain := filter_sign_group hminus hdigit (by rw [hgrouping]; rfl) negative 3 hdigits
  obtain rfl | rfl | rfl := hstyle
  · exact (congrArg _ (List.append_nil _)).trans hplain
  · exact (congrArg _ (List.append_nil _)).trans hplain
  · -- percent signs go first, and what stands before them is a filler
    have hgap : (suffix .percent (Symbols.ofLocale tag)).filter
        (fun c => !isFiller (Symbols.ofLocale tag) c && c != '%') = [] := by
      rw [List.filter_eq_nil_iff]
      intro c hc
      obtain hc | hc := List.mem_append.mp hc
      · obtain rfl | rfl := Symbols.percentSeparator_mem tag c (Option.mem_toList.mp hc)
        · simp [isFiller]
        · simp [isFiller]
      · simp [List.mem_singleton.mp hc]
    have hpercent : ∀ c, c.isDigit = true →
        (!isFiller (Symbols.ofLocale tag) c && c != '%') = true := by
      intro c hc
      have hne : c ≠ '%' := by
        rintro rfl
        cases hc
      rw [hdigit c hc]
      exact bne_iff_ne.mpr hne
    show ((sign negative ++ group 3 (Symbols.ofLocale tag).grouping (numeral n) ++
      suffix .percent (Symbols.ofLocale tag)).filter (· != '%')).filter _ = _
    rw [List.filter_filter, List.filter_append, hgap, List.append_nil]
    apply filter_sign_group _ hpercent _ negative 3 hdigits
    · rw [hminus]
      rfl
    · rw [hgrouping]
      rfl

/-- **What the text of an integer is read as.** In the styles that do not scale it is the integer,
unless it is the least one: its magnitude is read as a double. As a percentage it is the integer
whenever a hundredfold of it is in range. -/
theorem parse_format_int (tag : LocaleTag) (i : Int64) (style : NumberStyle)
    (hstyle : style = .standard ∨ style = .integer ∨ style = .percent)
    (hrange : (int64? (i.toInt * factorOf style)).isSome = true) :
    parse (format (int i) style (Symbols.ofLocale tag)) style (Symbols.ofLocale tag) =
      .ok (if i = Int64.minValue then float (-9223372036854775808) else int i) := by
  obtain ⟨product, hproduct⟩ := Option.isSome_iff_exists.mp hrange
  have htoInt := (toInt_of_int64? hproduct).symm
  rw [format_int hstyle htoInt, parse_of_body (isNumeral_numeral _) (by
    rw [trim_text, body_text tag _ _ hstyle])]
  congr 1
  have htogether := eq_minValue_iff hstyle htoInt
  by_cases hleast : i = Int64.minValue
  · have hproductLeast : product = Int64.minValue := htogether.mpr hleast
    -- only a style that does not scale keeps the least integer in range
    have hone : factorOf style = 1 := by
      rw [hleast, hproductLeast, Int64.toInt_minValue] at htoInt
      omega
    rw [if_pos hleast, hproductLeast, hone, unscale_one]
    exact ofDigits_two_pow
  · have hfactor : factorOf style ≠ 0 := by
      obtain rfl | rfl | rfl := hstyle <;> decide
    have hproductOther : product ≠ Int64.minValue := fun h => hleast (htogether.mp h)
    rw [if_neg hleast, ofDigits_int hproductOther, unscale_int hfactor htoInt]

/-- The greatest integer that can be written as a percentage is read back. -/
theorem parse_format_int_percent :
    let tag : LocaleTag := ⟨"fr".toList, none, some "FR".toList, []⟩
    let style : NumberStyle := .percent
    let i : Int64 := 92233720368547758
    (style = .standard ∨ style = .integer ∨ style = .percent) ∧
      (int64? (i.toInt * factorOf style)).isSome = true ∧
      parse (format (int i) style (Symbols.ofLocale tag)) style (Symbols.ofLocale tag) =
        .ok (int i) := by
  intro tag style i
  have hrange : (int64? (i.toInt * factorOf style)).isSome = true := by decide
  have hread := parse_format_int tag i style (.inr (.inr rfl)) hrange
  rw [if_neg (by decide)] at hread
  exact ⟨.inr (.inr rfl), hrange, hread⟩

/-- The least integer is read back as a double. -/
theorem parse_format_least_int :
    let tag : LocaleTag := ⟨"en".toList, none, some "US".toList, []⟩
    format (int Int64.minValue) .standard (Symbols.ofLocale tag) =
        "-9,223,372,036,854,775,808".toList ∧
      parse "-9,223,372,036,854,775,808".toList .standard (Symbols.ofLocale tag) =
        .ok (float (-9223372036854775808)) := by
  decide +kernel

end

end Number

end MessageCatalog
