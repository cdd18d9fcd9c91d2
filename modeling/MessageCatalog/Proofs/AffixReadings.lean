import MessageCatalog.Proofs.DateFields
import MessageCatalog.Proofs.IntegerTexts
import MessageCatalog.Proofs.RemovedOccurrences

/-!
# Readings of affixes

Reading a number in a decimal pattern drops the blanks at the ends of the text, removes the leftmost
occurrence of each affix and then whatever may stand among digits. So an affix is not removed when a
blank at its outer end has been dropped before, and what is removed need not be the affix: a suffix
that is a lone hyphen takes the sign away. This module says what is left of a written integer, and
when that is the integer.

## Main statements

* `parse_eq_int_iff` : what must be left of a text that is read as a given integer
* `exists_removeFirst_trim`, `counting_removeFirst` : what is left of the affixes
* `onlySignRemains_iff_of_apart`, `onlySignRemains_iff_of_cut` : when nothing but the sign is left
* `parse_format_pattern_iff` : which integers are read back in a decimal pattern
* `parse_format_pattern_fails` : four integers that are not
-/

namespace MessageCatalog

open Text

/-! ## Section 1: The factor of a pattern -/

namespace DecimalPattern

theorem Scan.factor_pos {inQuote : Bool} {scan result : Scan} {rest : Text}
    (h : Scan.run inQuote scan rest = some result) (hscan : 0 < scan.factor) : 0 < result.factor := by
  have haffix : ∀ (scan : Scan) c, (scan.affix c).factor = scan.factor := by
    intro scan c
    unfold Scan.affix
    split <;> rfl
  have hunquoted : ∀ (scan : Scan) c, 0 < scan.factor → 0 < (scan.unquoted c).factor := by
    intro scan c hpos
    unfold Scan.unquoted
    split
    · exact hpos
    · show 0 < factorAfter scan.factor c
      unfold factorAfter
      split_ifs <;> omega
  fun_induction Scan.run inQuote scan rest with
  | case1 => cases h
  | case2 => exact Option.some.inj h ▸ hscan
  | case3 inQuote scan rest ih => exact ih h ((haffix _ _).symm ▸ hscan)
  | case4 => rename_i ih; exact ih h hscan
  | case5 => rename_i ih; exact ih h ((haffix _ _).symm ▸ hscan)
  | case6 => rename_i ih; exact ih h (hunquoted _ _ hscan)

/-- An accepted pattern does not multiply by zero. -/
theorem factor_pos {pattern : Text} {p : DecimalPattern} (h : parse? pattern = some p) :
    0 < p.factor := by
  simp only [parse?, bind, Option.bind_eq_some_iff, pure, Option.some.injEq] at h
  obtain ⟨scan, hscan, layout, _, rfl⟩ := h
  exact Scan.factor_pos hscan Nat.one_pos

end DecimalPattern

namespace Number

section

variable {tag : LocaleTag} {symbols : Symbols} {style : NumberStyle} {text digits : Text}
  {negative : Bool} {i m product : Int64} {factor : Int}

/-! ## Section 2: What is read as an integer -/

/-- The characters of a text that count when a number is read. -/
def counting (symbols : Symbols) (t : Text) : Text := t.filter fun c => !isFiller symbols c

/-- What is left of a text when a number is read from it. -/
def leftOver (style : NumberStyle) (symbols : Symbols) (text : Text) : Text :=
  counting symbols (stripStyle style symbols (trim text))

theorem exists_int_of_unscale {n : Number} (h : unscale n factor = int i) : ∃ m, n = int m := by
  cases n with
  | int m => exact ⟨m, rfl⟩
  | float x =>
    unfold unscale at h
    split at h <;> cases h

/-- **An integer is divided back to an integer exactly when it is the product.** -/
theorem unscale_eq_int_iff (hfactor : factor ≠ 0) (hleast : m ≠ Int64.minValue) :
    unscale (int m) factor = int i ↔ i.toInt * factor = m.toInt := by
  constructor
  · intro h
    unfold unscale at h
    split at h
    · rename_i hone
      cases h
      rw [hone, Int.mul_one]
    · simp only at h
      split at h
      · rename_i hdivides
        obtain rfl : Int64.ofInt (m.toInt / factor) = i := Number.int.inj h
        -- the quotient is in range, since it is no larger than the product
        have hle := Int.natAbs_ediv_le_natAbs m.toInt factor
        have hlower := m.le_toInt
        have hupper := m.toInt_lt
        have hne : m.toInt ≠ -2 ^ 63 := fun heq => hleast (Int64.toInt_inj.mp heq)
        rw [Int64.toInt_ofInt_of_le (by omega) (by omega)]
        exact Int.ediv_mul_cancel_of_emod_eq_zero hdivides
      · cases h
  · exact unscale_int hfactor

/-- Digits are read as an integer when their value is below `2 ^ 63`. -/
theorem ofDigits_of_isNumeral (h : isNumeral digits = true) (hvalue : value digits < 2 ^ 63) :
    ofDigits negative digits =
      int (Int64.ofInt (if negative then -(value digits : Int) else value digits)) := by
  have hpoint : '.' ∉ digits := fun hmem => by
    cases List.all_eq_true.mp (Bool.and_eq_true_iff.mp h).2 _ hmem
  unfold ofDigits
  simp only
  rw [if_neg hpoint, if_pos (by omega)]

theorem not_mem_point_of_ofDigits (h : ofDigits negative digits = int m) : '.' ∉ digits := by
  intro hpoint
  unfold ofDigits at h
  simp only at h
  rw [if_pos hpoint] at h
  cases h

/-- What is read of a magnitude with a sign. -/
def ofMagnitude (text : Text) (style : NumberStyle) (symbols : Symbols) (negative : Bool)
    (magnitude : Text) : Except FormatError Number :=
  if magnitude = "NaN".toList then .ok (float notANumber)
  else if magnitude = ['∞'] then .ok (float (if negative then -infinity else infinity))
  else
    let digits := magnitude.map fun c => if c = symbols.decimal then '.' else c
    if wellFormed digits then .ok ((ofDigits negative digits).unscale (factorOf style))
    else .error (.unparseable text "not a number")

/-- A minus sign at the start of what is left is the sign. -/
theorem exists_parse_eq_ofMagnitude (text : Text) (style : NumberStyle) (symbols : Symbols) :
    ∃ negative magnitude, leftOver style symbols text = sign negative ++ magnitude ∧
      parse text style symbols = ofMagnitude text style symbols negative magnitude := by
  obtain ⟨rest, hminus⟩ | hplain :
      (∃ rest, leftOver style symbols text = '-' :: rest) ∨
        ∀ rest, leftOver style symbols text = '-' :: rest → False := by
    by_cases h : ∃ rest, leftOver style symbols text = '-' :: rest
    · exact .inl h
    · exact .inr fun rest hrest => h ⟨rest, hrest⟩
  · refine ⟨true, rest, hminus, ?_⟩
    unfold leftOver counting at hminus
    unfold parse
    simp only [hminus]
    rfl
  · refine ⟨false, leftOver style symbols text, rfl, ?_⟩
    unfold leftOver counting at hplain ⊢
    unfold parse
    -- the match on the sign falls through by what is assumed
    simp only
    rfl

/-- **A magnitude that is read as an integer is a row of digits.** -/
theorem isNumeral_of_ofMagnitude {magnitude : Text}
    (h : ofMagnitude text style symbols negative magnitude = .ok (int i)) :
    isNumeral magnitude = true ∧
      (ofDigits negative magnitude).unscale (factorOf style) = int i := by
  unfold ofMagnitude at h
  simp only at h
  split at h
  · cases h
  split at h
  · cases h
  split at h
  · rename_i hformed
    have hread := Except.ok.inj h
    obtain ⟨m, hm⟩ := exists_int_of_unscale hread
    have hpoint := not_mem_point_of_ofDigits hm
    simp only [wellFormed, Bool.and_eq_true, List.any_eq_true, List.all_eq_true] at hformed
    obtain ⟨⟨⟨d, hd, _⟩, hall⟩, _⟩ := hformed
    -- without a point among them, the characters are digits, and none is the decimal character
    have hdigit : ∀ c ∈ magnitude, c ≠ symbols.decimal ∧ c.isDigit = true := by
      intro c hc
      have himage := List.mem_map_of_mem (f := fun c => if c = symbols.decimal then '.' else c) hc
      by_cases hdecimal : c = symbols.decimal
      · exact absurd (by simpa [hdecimal] using himage) hpoint
      · rw [if_neg hdecimal] at himage
        have hc' := hall c himage
        rw [Bool.or_eq_true, beq_iff_eq] at hc'
        exact ⟨hdecimal, hc'.resolve_right fun heq => hpoint (heq ▸ himage)⟩
    have hsame : magnitude.map (fun c => if c = symbols.decimal then '.' else c) = magnitude :=
      (List.map_congr_left fun c hc => if_neg (hdigit c hc).1).trans (List.map_id magnitude)
    rw [hsame] at hread hd
    refine ⟨?_, hread⟩
    rw [isNumeral, Bool.and_eq_true, Bool.not_eq_true', List.isEmpty_eq_false_iff]
    exact ⟨List.ne_nil_of_mem hd, List.all_eq_true.mpr fun c hc => (hdigit c hc).2⟩
  · cases h

/-- Around digits stands a sign and nothing else, if all of it is a sign and digits. -/
theorem eq_sign_of_append_eq {before after magnitude : Text}
    (hbefore : ∀ c ∈ before, c.isDigit = false) (hafter : ∀ c ∈ after, c.isDigit = false)
    (hdigits : isNumeral digits = true) (hmagnitude : isNumeral magnitude = true)
    (h : before ++ digits ++ after = sign negative ++ magnitude) :
    before = sign negative ∧ after = [] ∧ digits = magnitude := by
  have hall := List.all_eq_true.mp (Bool.and_eq_true_iff.mp hmagnitude).2
  have hnone : ∀ {part : Text}, (∀ c ∈ part, c.isDigit = false) → (∀ c ∈ part, c ∈ magnitude) →
      part = [] := by
    intro part hpart hmem
    rw [List.eq_nil_iff_forall_not_mem]
    intro c hc
    cases (hpart c hc).symm.trans (hall c (hmem c hc))
  have hplain : ∀ {front : Text}, (∀ c ∈ front, c.isDigit = false) →
      front ++ digits ++ after = magnitude → front = [] ∧ after = [] ∧ digits = magnitude := by
    intro front hfront heq
    obtain rfl := hnone hfront fun c hc => by simp [← heq, hc]
    obtain rfl := hnone hafter fun c hc => by simp [← heq, hc]
    exact ⟨rfl, rfl, by simpa using heq⟩
  cases negative with
  | false => exact hplain hbefore h
  | true =>
    cases before with
    | nil =>
      -- the minus sign would be the first digit
      obtain ⟨d, rest, rfl⟩ : ∃ d rest, digits = d :: rest := by
        cases digits with
        | nil => cases hdigits
        | cons d rest => exact ⟨d, rest, rfl⟩
      obtain rfl := (List.cons_eq_cons.mp h).1
      cases hdigits
    | cons c front =>
      obtain ⟨rfl, htail⟩ := List.cons_eq_cons.mp h
      obtain ⟨rfl, hrest⟩ := hplain (fun c hc => hbefore c (List.mem_cons_of_mem _ hc)) htail
      exact ⟨rfl, hrest⟩

/-- A sign and the digits of a product are read as the integer when the sign is that of the product,
or there is nothing to be signed. -/
theorem unscale_ofDigits_iff (hfactor : factor ≠ 0) (hproduct : i.toInt * factor = product.toInt)
    (hleast : product ≠ Int64.minValue) (hdigits : isNumeral digits = true)
    (hvalue : value digits = product.toInt.natAbs) :
    (ofDigits negative digits).unscale factor = int i ↔
      product.toInt = 0 ∨ negative = decide (product.toInt < 0) := by
  have hlower := product.le_toInt
  have hupper := product.toInt_lt
  have hne : product.toInt ≠ -2 ^ 63 := fun heq => hleast (Int64.toInt_inj.mp heq)
  set signed : Int := if negative then -(value digits : Int) else value digits with hsigned
  have hrange : -2 ^ 63 < signed ∧ signed < 2 ^ 63 := by
    rw [hsigned, hvalue]
    split <;> omega
  have htoInt : (Int64.ofInt signed).toInt = signed :=
    Int64.toInt_ofInt_of_le (by omega) hrange.2
  have hsigned' : Int64.ofInt signed ≠ Int64.minValue := by
    rw [Ne, ← Int64.toInt_inj, htoInt, Int64.toInt_minValue]
    omega
  rw [ofDigits_of_isNumeral hdigits (by omega), unscale_eq_int_iff hfactor hsigned', htoInt,
    hproduct, hsigned, hvalue]
  cases negative with
  | true =>
    rw [if_pos rfl, eq_comm (a := true), decide_eq_true_iff]
    omega
  | false =>
    rw [if_neg Bool.false_ne_true, eq_comm (a := false), decide_eq_false_iff_not]
    omega

/-- **What must be left of a text that is read as a given integer**: the digits of the product with
nothing after them and its sign before them. Zero may have a minus sign. -/
theorem parse_eq_int_iff (hfactor : factorOf style ≠ 0)
    (hproduct : i.toInt * factorOf style = product.toInt) (hleast : product ≠ Int64.minValue)
    (hdigits : isNumeral digits = true) (hvalue : value digits = product.toInt.natAbs)
    {before after : Text} (hbefore : ∀ c ∈ before, c.isDigit = false)
    (hafter : ∀ c ∈ after, c.isDigit = false)
    (hleft : leftOver style (Symbols.ofLocale tag) text = before ++ digits ++ after) :
    parse text style (Symbols.ofLocale tag) = .ok (int i) ↔
      (∃ negative, before = sign negative ∧
        (product.toInt = 0 ∨ negative = decide (product.toInt < 0))) ∧ after = [] := by
  constructor
  · intro h
    obtain ⟨negative, magnitude, hsplit, hparse⟩ :=
      exists_parse_eq_ofMagnitude text style (Symbols.ofLocale tag)
    obtain ⟨hnumeral, hread⟩ := isNumeral_of_ofMagnitude (hparse.symm.trans h)
    obtain ⟨hsign, hnil, rfl⟩ :=
      eq_sign_of_append_eq hbefore hafter hdigits hnumeral (hleft.symm.trans hsplit)
    exact ⟨⟨negative, hsign, (unscale_ofDigits_iff hfactor hproduct hleast hdigits hvalue).mp hread⟩,
      hnil⟩
  · rintro ⟨⟨negative, rfl, hsign⟩, rfl⟩
    have hbody : leftOver style (Symbols.ofLocale tag) text = sign negative ++ digits :=
      hleft.trans (List.append_nil _)
    rw [parse_of_body hdigits hbody,
      (unscale_ofDigits_iff hfactor hproduct hleast hdigits hvalue).mpr hsign]

end

/-! ## Section 3: What is left of affixes -/

section

variable {tag : LocaleTag} {t digits lead tail affix : Text} {separator : Char}

theorem not_digit_of_all (h : t.all (!·.isDigit) = true) : ∀ c ∈ t, c.isDigit = false := by
  intro c hc
  exact (Bool.not_eq_true' _).mp (List.all_eq_true.mp h c hc)

theorem currency_symbol_not_digit (tag : LocaleTag) :
    ∀ c ∈ (Symbols.ofLocale tag).currency.symbol, c.isDigit = false := by
  have hall : ∀ currency ∈ Symbols.currencies, currency.symbol.all (!·.isDigit) = true := by decide
  exact not_digit_of_all (hall _ (Symbols.currency_mem tag))

/-- A currency symbol brings no digit into an affix. -/
theorem withCurrency_not_digit (tag : LocaleTag) (h : ∀ c ∈ affix, c.isDigit = false) :
    ∀ c ∈ withCurrency (Symbols.ofLocale tag) affix, c.isDigit = false := by
  intro c hc
  obtain ⟨d, hd, hc⟩ := List.mem_flatMap.mp hc
  split at hc
  · exact currency_symbol_not_digit tag c hc
  · obtain rfl := List.mem_singleton.mp hc
    exact h c hd

/-- The affixes of a pattern are removed one after the other. -/
theorem stripStyle_pattern (p : DecimalPattern) (symbols : Symbols) (body : Text) :
    stripStyle (.pattern p) symbols body =
      removeFirst (withCurrency symbols p.after)
        (removeFirst (withCurrency symbols p.before) body) := by
  have hremove : ∀ affix body, (if affix = [] then body
      else removeFirst (withCurrency symbols affix) body) =
        removeFirst (withCurrency symbols affix) body := by
    intro affix body
    split
    · rename_i hnil
      rw [hnil]
      exact (removeFirst_nil body).symm
    · rfl
  unfold stripStyle
  simp only [hremove]

/-- **An affix comes off** when trimming leaves it whole, so that it is found and removed, or leaves
nothing of it that counts when a number is read. -/
def ComesOff (symbols : Symbols) (affix trimmed : Text) : Prop :=
  trimmed = affix ∨ ∀ c ∈ trimmed, isFiller symbols c = true

instance (symbols : Symbols) (affix trimmed : Text) : Decidable (ComesOff symbols affix trimmed) :=
  inferInstanceAs (Decidable (_ ∨ _))

theorem comesOff_iff {symbols : Symbols} {affix trimmed : Text} :
    ComesOff symbols affix trimmed ↔
      trimmed = affix ∨ counting symbols trimmed = [] := by
  rw [ComesOff, counting, List.filter_eq_nil_iff]
  simp only [Bool.not_eq_true', Bool.not_eq_false]

theorem isFiller_grouping (tag : LocaleTag) :
    isFiller (Symbols.ofLocale tag) (Symbols.ofLocale tag).grouping = true := by
  simp [isFiller]

theorem mem_of_mem_counting {symbols : Symbols} {c : Char} (h : c ∈ counting symbols t) : c ∈ t :=
  List.mem_of_mem_filter h

theorem counting_minus (tag : LocaleTag) : counting (Symbols.ofLocale tag) ['-'] = ['-'] :=
  List.filter_cons_of_pos (by rw [isFiller_minus]; rfl)

/-- What counts of a text around digits. -/
theorem counting_append_append (h : Parted (Symbols.ofLocale tag).grouping digits t)
    (front rest : Text) :
    counting (Symbols.ofLocale tag) (front ++ (t ++ rest)) =
      counting (Symbols.ofLocale tag) front ++ digits ++ counting (Symbols.ofLocale tag) rest := by
  have hdigits : counting (Symbols.ofLocale tag) t = digits :=
    h.filter_eq (by simp [isFiller_grouping]) fun c hc => by simp [isFiller_of_isDigit tag hc]
  rw [← hdigits]
  simp only [counting, List.filter_append, List.append_assoc]

/-- Removing fillers does not change what counts. -/
theorem counting_removeFirst_of_fillers {symbols : Symbols} {needle : Text}
    (h : ∀ c ∈ needle, isFiller symbols c = true) (t : Text) :
    counting symbols (removeFirst needle t) = counting symbols t := by
  by_cases hoccurs : needle <:+: t
  · obtain ⟨before, after, rfl, hremoved⟩ := exists_removeFirst_eq hoccurs
    have hnone : counting symbols needle = [] :=
      List.filter_eq_nil_iff.mpr fun c hc => by simp [h c hc]
    unfold counting at hnone ⊢
    simp only [hremoved, List.filter_append, hnone, List.append_nil]
  · rw [removeFirst_of_not_isInfix hoccurs]

/-- **What counts when an affix has been removed from a text around digits**: the affix is removed
before them, or else behind them. -/
theorem counting_removeFirst (h : Parted (Symbols.ofLocale tag).grouping digits t)
    (haffix : ∀ c ∈ affix, c.isDigit = false) (front rest : Text) :
    counting (Symbols.ofLocale tag) (removeFirst affix (front ++ (t ++ rest))) =
      counting (Symbols.ofLocale tag) (removeFirst affix front) ++ digits ++
        counting (Symbols.ofLocale tag)
          (if affix <:+: front then rest else removeFirst affix rest) := by
  by_cases hfront : affix <:+: front
  · rw [if_pos hfront, removeFirst_append_of_isInfix hfront, counting_append_append h]
  rw [if_neg hfront, h.removeFirst_front haffix hfront, removeFirst_of_not_isInfix hfront]
  have hne : affix ≠ [] := fun hnil => hfront (hnil ▸ List.nil_infix)
  by_cases hone : affix = [(Symbols.ofLocale tag).grouping] ∧ (Symbols.ofLocale tag).grouping ∈ t
  · -- the affix is a separator, and it does not matter which one is removed
    obtain ⟨rfl, hmem⟩ := hone
    have hseparator := haffix _ (List.mem_singleton_self _)
    obtain ⟨left, hleft, hremoved⟩ := h.exists_removeFirst_separator hseparator hmem rest
    rw [hremoved, counting_append_append hleft,
      counting_removeFirst_of_fillers (by simp [isFiller_grouping])]
  · rw [h.removeFirst_append hne haffix fun hsame hmem => hone ⟨hsame, hmem⟩,
      counting_append_append h]

/-- What is left of an affix at an end of the text counts for nothing exactly when the affix comes
off. -/
theorem counting_removeFirst_eq_nil_iff {symbols : Symbols} {trimmed : Text}
    (h : trimmed <:+: affix) :
    counting symbols (removeFirst affix trimmed) = [] ↔ ComesOff symbols affix trimmed := by
  rw [comesOff_iff]
  by_cases hwhole : trimmed = affix
  · have hgone := removeFirst_append_self affix []
    rw [List.append_nil] at hgone
    rw [hwhole, hgone]
    exact iff_of_true rfl (.inl rfl)
  · rw [removeFirst_of_not_isInfix (not_isInfix_of_part h hwhole)]
    exact (or_iff_right hwhole).symm

/-- What stands before the digits when the blanks at the ends of the text and the first affix are
gone: the minus sign, or what is left of an affix that began with a blank. -/
def leftBefore (negative : Bool) (lead : Text) : Text :=
  if negative then ['-'] else if trimLeft lead = lead then [] else trimLeft lead

/-- What stands behind the digits then: the second affix without the blanks at its end. If the first
one was not removed before the digits, nor as a separator among them, it is removed here. -/
def leftBehind (separator : Char) (negative : Bool) (lead tail t : Text) : Text :=
  if negative = true ∨ trimLeft lead = lead ∨ (lead = [separator] ∧ separator ∈ t) then trimRight tail
  else removeFirst lead (trimRight tail)

/-- **The first affix is removed** before the digits, if it is whole there, and else among them or
behind them. -/
theorem exists_removeFirst_trim (h : Parted separator digits t)
    (hlead : ∀ c ∈ lead, c.isDigit = false) (negative : Bool) (tail : Text) :
    ∃ left, Parted separator digits left ∧
      removeFirst lead (trim (sign negative ++ lead ++ t ++ tail)) =
        leftBefore negative lead ++ (left ++ leftBehind separator negative lead tail t) := by
  rw [h.trim_append_append, List.append_assoc, leftBehind]
  cases negative with
  | true =>
    -- the minus sign keeps the affix whole
    refine ⟨t, h, ?_⟩
    show removeFirst lead ('-' :: lead ++ (t ++ trimRight tail)) = _
    rw [List.cons_append, removeFirst_cons_append_self]
    rfl
  | false =>
    show ∃ left, Parted separator digits left ∧
      removeFirst lead (trimLeft lead ++ (t ++ trimRight tail)) = _
    rw [leftBefore, if_neg Bool.false_ne_true]
    by_cases hwhole : trimLeft lead = lead
    · refine ⟨t, h, ?_⟩
      rw [if_pos hwhole, if_pos (.inr (.inl hwhole)), hwhole, removeFirst_append_self]
      rfl
    -- what is left of the affix is shorter, so the affix does not stand there any more
    have hpart : ¬lead <:+: trimLeft lead :=
      not_isInfix_of_part (isSuffix_trimLeft lead).isInfix hwhole
    have hne : lead ≠ [] := fun hnil => hwhole (by rw [hnil]; rfl)
    rw [if_neg hwhole, h.removeFirst_front hlead hpart]
    by_cases hone : lead = [separator] ∧ separator ∈ t
    · obtain ⟨rfl, hmem⟩ := hone
      have hseparator := hlead _ (List.mem_singleton_self _)
      obtain ⟨left, hleft, hremoved⟩ := h.exists_removeFirst_separator hseparator hmem (trimRight tail)
      exact ⟨left, hleft, by rw [if_pos (.inr (.inr ⟨rfl, hmem⟩)), hremoved]⟩
    · refine ⟨t, h, ?_⟩
      rw [if_neg (by simp [hwhole, hone]),
        h.removeFirst_append hne hlead fun hsame hmem => hone ⟨hsame, hmem⟩]

/-- Nothing is left behind the digits but characters of the second affix. -/
theorem mem_of_mem_leftBehind {negative : Bool} {c : Char}
    (h : c ∈ leftBehind separator negative lead tail t) : c ∈ tail := by
  have hsub : (leftBehind separator negative lead tail t).Sublist tail := by
    unfold leftBehind
    split
    · exact (isPrefix_trimRight tail).sublist
    · exact (sublist_removeFirst _ _).trans (isPrefix_trimRight tail).sublist
  exact hsub.subset h

/-- When no affix is taken for something else: the number has a minus sign, or the first affix begins
with no blank, or neither affix stands in the other one. -/
def Apart (symbols : Symbols) (p : DecimalPattern) (product : Int) : Prop :=
  let lead := withCurrency symbols p.before
  let tail := withCurrency symbols p.after
  product < 0 ∨ trimLeft lead = lead ∨ (¬lead <:+: tail ∧ (tail = [] ∨ ¬tail <:+: lead))

/-- **The affixes of a pattern come off the text of an integer** with a given product. -/
structure AffixesComeOff (symbols : Symbols) (p : DecimalPattern) (product : Int) : Prop where
  /-- The second affix is not taken for the minus sign. -/
  sign : product < 0 → withCurrency symbols p.after ≠ ['-']
  /-- The first affix comes off where it is not kept whole by the minus sign. Before zero a minus
  sign may be left. -/
  lead :
    let lead := withCurrency symbols p.before
    product < 0 ∨ ComesOff symbols lead (trimLeft lead) ∨
      product = 0 ∧ counting symbols (trimLeft lead) = ['-']
  /-- The second affix comes off. -/
  tail : ComesOff symbols (withCurrency symbols p.after) (trimRight (withCurrency symbols p.after))

/-- The digits of a product as a pattern without fraction digits writes them. -/
def writtenDigits (symbols : Symbols) (p : DecimalPattern) (product : Int) : Text :=
  arranged p.layout symbols (padZeros p.layout.minWhole (numeral product.natAbs))

/-- **The affixes of a pattern come off the text of a number that is not negative although trimming
cuts the first one**, for it begins with a blank. What is left of the one affix may then be removed
for the other. -/
structure CutAffixesComeOff (symbols : Symbols) (p : DecimalPattern) (product : Int) : Prop where
  /-- What is left of the first affix counts for nothing when the second one has been removed from
  it. Before zero a minus sign may be left. -/
  lead :
    let left := counting symbols
      (removeFirst (withCurrency symbols p.after) (trimLeft (withCurrency symbols p.before)))
    left = [] ∨ product = 0 ∧ left = ['-']
  /-- What is left of the second affix counts for nothing when the first one has been removed from
  it; or it is whole and comes off behind the digits. Then it does not stand in what is left of the
  first affix, and the first one does not stand in it, or is a separator and comes off among the
  digits. -/
  tail :
    let lead := withCurrency symbols p.before
    let tail := withCurrency symbols p.after
    counting symbols (removeFirst lead (trimRight tail)) = [] ∨
      trimRight tail = tail ∧ ¬tail <:+: trimLeft lead ∧
        (lead <:+: tail →
          lead = [symbols.grouping] ∧ symbols.grouping ∈ writtenDigits symbols p product)

/-- What is left before the digits of a product when both affixes have been removed. -/
def remainsBefore (symbols : Symbols) (p : DecimalPattern) (product : Int) : Text :=
  removeFirst (withCurrency symbols p.after)
    (leftBefore (decide (product < 0)) (withCurrency symbols p.before))

/-- What is left behind them. -/
def remainsBehind (symbols : Symbols) (p : DecimalPattern) (product : Int) : Text :=
  let lead := withCurrency symbols p.before
  let tail := withCurrency symbols p.after
  let negative := decide (product < 0)
  let behind := leftBehind symbols.grouping negative lead tail (writtenDigits symbols p product)
  if tail <:+: leftBefore negative lead then behind else removeFirst tail behind

/-- Of what is left around the digits nothing counts but the sign of the product. -/
def OnlySignRemains (symbols : Symbols) (p : DecimalPattern) (product : Int) : Prop :=
  (∃ negative, counting symbols (remainsBefore symbols p product) = sign negative ∧
    (product = 0 ∨ negative = decide (product < 0))) ∧
  counting symbols (remainsBehind symbols p product) = []

/-- What is left before the digits of a number that is not negative is its sign when it is nothing, or
before zero a minus sign. -/
theorem exists_sign_iff {product : Int} {left : Text} :
    (∃ negative, left = sign negative ∧ (product = 0 ∨ negative = false)) ↔
      left = [] ∨ product = 0 ∧ left = ['-'] := by
  constructor
  · rintro ⟨negative, hleft, hzero⟩
    cases negative with
    | false => exact .inl hleft
    | true => exact .inr ⟨hzero.resolve_right (by decide), hleft⟩
  · rintro (hnone | ⟨hzero, hminus⟩)
    · exact ⟨false, hnone, .inr rfl⟩
    · exact ⟨true, hminus, .inl hzero⟩

/-- What is left before the digits is the sign of the product exactly when the first affix comes
off. -/
theorem sign_leftBefore_iff (tag : LocaleTag) (product : Int) (lead : Text) :
    (∃ negative,
        counting (Symbols.ofLocale tag) (leftBefore (decide (product < 0)) lead) = sign negative ∧
          (product = 0 ∨ negative = decide (product < 0))) ↔
      product < 0 ∨ ComesOff (Symbols.ofLocale tag) lead (trimLeft lead) ∨
        product = 0 ∧ counting (Symbols.ofLocale tag) (trimLeft lead) = ['-'] := by
  unfold leftBefore
  by_cases hnegative : product < 0
  · refine iff_of_true ⟨true, ?_, .inr (by simp [hnegative])⟩ (.inl hnegative)
    simp [hnegative, counting_minus, sign]
  by_cases hwhole : trimLeft lead = lead
  · refine iff_of_true ⟨false, ?_, .inr (by simp [hnegative])⟩ (.inr (.inl (.inl hwhole)))
    simp [hnegative, hwhole, sign, counting]
  · simp only [hnegative, hwhole, decide_false, Bool.false_eq_true, if_false, false_or, comesOff_iff]
    exact exists_sign_iff

theorem leftBefore_not_digit (negative : Bool) (h : ∀ c ∈ lead, c.isDigit = false) :
    ∀ c ∈ leftBefore negative lead, c.isDigit = false := by
  intro c hc
  unfold leftBefore at hc
  split_ifs at hc
  · obtain rfl := List.mem_singleton.mp hc
    rfl
  · cases hc
  · exact h c ((isSuffix_trimLeft lead).subset hc)

/-- The second affix does not stand before the digits, unless it is a lone hyphen before which there
is a minus sign. -/
theorem not_isInfix_leftBefore {symbols : Symbols} {p : DecimalPattern} {product : Int}
    (hapart : Apart symbols p product) (hsign : product < 0 → withCurrency symbols p.after ≠ ['-']) :
    withCurrency symbols p.after = [] ∨
      ¬withCurrency symbols p.after <:+:
        leftBefore (decide (product < 0)) (withCurrency symbols p.before) := by
  rw [or_iff_not_imp_left]
  intro hne hoccurs
  unfold leftBefore at hoccurs
  by_cases hnegative : product < 0
  · rw [if_pos (decide_eq_true hnegative)] at hoccurs
    have hlength := List.length_pos_iff.mpr hne
    exact hsign hnegative (hoccurs.eq_of_length_le hlength)
  · rw [if_neg (by simp [hnegative])] at hoccurs
    by_cases hwhole : trimLeft (withCurrency symbols p.before) = withCurrency symbols p.before
    · rw [if_pos hwhole] at hoccurs
      exact hne (List.infix_nil.mp hoccurs)
    · rw [if_neg hwhole] at hoccurs
      obtain ⟨_, hnone | hnot⟩ := (hapart.resolve_left hnegative).resolve_left hwhole
      · exact hne hnone
      · exact hnot (hoccurs.trans (isSuffix_trimLeft _).isInfix)

/-! ## Section 4: What is left around the digits -/

/-- Where no affix is taken for something else, only the sign is left when both come off. -/
theorem onlySignRemains_iff_of_apart {p : DecimalPattern} {product : Int}
    (hapart : Apart (Symbols.ofLocale tag) p product) :
    OnlySignRemains (Symbols.ofLocale tag) p product ↔
      AffixesComeOff (Symbols.ofLocale tag) p product := by
  set lead := withCurrency (Symbols.ofLocale tag) p.before with hlead
  set tail := withCurrency (Symbols.ofLocale tag) p.after with htail
  by_cases hsign : product < 0 → tail ≠ ['-']
  · have hfront := not_isInfix_leftBefore hapart hsign
    rw [← hlead, ← htail] at hfront
    -- the second affix is not found before the digits, nor the first one behind them
    have hbefore : remainsBefore (Symbols.ofLocale tag) p product =
        leftBefore (decide (product < 0)) lead := by
      rw [remainsBefore, ← hlead, ← htail]
      obtain hnil | habsent := hfront
      · rw [hnil, removeFirst_nil]
      · exact removeFirst_of_not_isInfix habsent
    have hkept : leftBehind (Symbols.ofLocale tag).grouping (decide (product < 0)) lead tail
        (writtenDigits (Symbols.ofLocale tag) p product) = trimRight tail := by
      unfold leftBehind
      split
      · rfl
      · rename_i hcut
        rw [not_or, not_or, decide_eq_true_eq] at hcut
        have habsent := ((hapart.resolve_left hcut.1).resolve_left hcut.2.1).1
        exact removeFirst_of_not_isInfix fun hoccurs =>
          habsent (hoccurs.trans (isPrefix_trimRight tail).isInfix)
    have hbehind : remainsBehind (Symbols.ofLocale tag) p product =
        removeFirst tail (trimRight tail) := by
      simp only [remainsBehind, ← hlead, ← htail, hkept]
      split
      · rename_i hoccurs
        rw [hfront.resolve_right fun habsent => habsent hoccurs, removeFirst_nil]
      · rfl
    rw [OnlySignRemains, hbefore, hbehind, sign_leftBefore_iff,
      counting_removeFirst_eq_nil_iff (isPrefix_trimRight tail).isInfix]
    exact ⟨fun ⟨hfirst, hsecond⟩ => ⟨hsign, hfirst, hsecond⟩, fun h => ⟨h.lead, h.tail⟩⟩
  · -- a lone hyphen takes the minus sign, and the digits are left without one
    obtain ⟨hnegative, hhyphen⟩ : product < 0 ∧ tail = ['-'] := by
      simpa only [Classical.not_imp, ne_eq, not_not] using hsign
    refine iff_of_false ?_ fun h => hsign h.sign
    rintro ⟨⟨negative, hleft, hproduct⟩, -⟩
    have hnone : remainsBefore (Symbols.ofLocale tag) p product = [] := by
      rw [remainsBefore, ← htail, hhyphen, leftBefore, if_pos (decide_eq_true hnegative)]
      exact removeFirst_append_self ['-'] []
    rw [hnone] at hleft
    cases negative with
    | true => cases hleft
    | false =>
      obtain hzero | hpositive := hproduct
      · omega
      · rw [eq_comm, decide_eq_false_iff_not] at hpositive
        exact hpositive hnegative

/-- Where trimming cuts the first affix, the second one is gone from behind the digits when the first
one has left nothing of it that counts, or when it is whole and comes off there. -/
theorem counting_leftBehind_iff_of_cut (tag : LocaleTag) (tail t : Text)
    (hcut : trimLeft lead ≠ lead) :
    counting (Symbols.ofLocale tag)
        (if tail <:+: trimLeft lead
          then leftBehind (Symbols.ofLocale tag).grouping false lead tail t
          else removeFirst tail (leftBehind (Symbols.ofLocale tag).grouping false lead tail t)) = [] ↔
      counting (Symbols.ofLocale tag) (removeFirst lead (trimRight tail)) = [] ∨
        trimRight tail = tail ∧ ¬tail <:+: trimLeft lead ∧
          (lead <:+: tail → lead = [(Symbols.ofLocale tag).grouping] ∧
            (Symbols.ofLocale tag).grouping ∈ t) := by
  have htrimmed : trimRight tail <:+: tail := (isPrefix_trimRight tail).isInfix
  by_cases hone : lead = [(Symbols.ofLocale tag).grouping] ∧ (Symbols.ofLocale tag).grouping ∈ t
  · -- a separator among the digits is removed for the first affix
    have hbehind : leftBehind (Symbols.ofLocale tag).grouping false lead tail t = trimRight tail :=
      if_pos (.inr (.inr hone))
    have hfillers : ∀ c ∈ lead, isFiller (Symbols.ofLocale tag) c = true := by
      rw [hone.1]
      simpa using isFiller_grouping tag
    rw [hbehind, counting_removeFirst_of_fillers hfillers]
    by_cases hoccurs : tail <:+: trimLeft lead
    · simp [hoccurs]
    · rw [if_neg hoccurs, counting_removeFirst_eq_nil_iff htrimmed, comesOff_iff, or_comm]
      exact or_congr_right ⟨fun hwhole => ⟨hwhole, hoccurs, fun _ => hone⟩, And.left⟩
  · have hbehind : leftBehind (Symbols.ofLocale tag).grouping false lead tail t =
        removeFirst lead (trimRight tail) :=
      if_neg fun h => h.elim Bool.false_ne_true fun h => h.elim hcut hone
    rw [hbehind]
    by_cases hoccurs : tail <:+: trimLeft lead
    · simp [hoccurs]
    rw [if_neg hoccurs]
    by_cases htaken : lead <:+: trimRight tail
    · -- what the first affix is removed from is too short for the second one
      have hshort : ¬tail <:+: removeFirst lead (trimRight tail) := fun hfound => by
        have hlength := length_removeFirst htaken
        have hfound' := hfound.length_le
        have htrimmed' := htrimmed.length_le
        have hpositive : 0 < lead.length :=
          List.length_pos_iff.mpr fun hnil => hcut (by rw [hnil]; rfl)
        omega
      rw [removeFirst_of_not_isInfix hshort]
      exact (or_iff_left fun h => hone (h.2.2 (htaken.trans htrimmed))).symm
    · rw [removeFirst_of_not_isInfix htaken, counting_removeFirst_eq_nil_iff htrimmed, comesOff_iff,
        or_comm]
      refine or_congr_right ⟨fun hwhole => ⟨hwhole, hoccurs, fun hin => ?_⟩, And.left⟩
      rw [hwhole] at htaken
      exact absurd hin htaken

/-- Where trimming cuts the first affix, only the sign is left when both come off. -/
theorem onlySignRemains_iff_of_cut {p : DecimalPattern} {product : Int} (hproduct : 0 ≤ product)
    (hcut : trimLeft (withCurrency (Symbols.ofLocale tag) p.before) ≠
      withCurrency (Symbols.ofLocale tag) p.before) :
    OnlySignRemains (Symbols.ofLocale tag) p product ↔
      CutAffixesComeOff (Symbols.ofLocale tag) p product := by
  have hnegative : decide (product < 0) = false := decide_eq_false (by omega)
  have hfront : leftBefore false (withCurrency (Symbols.ofLocale tag) p.before) =
      trimLeft (withCurrency (Symbols.ofLocale tag) p.before) := by
    rw [leftBefore, if_neg Bool.false_ne_true, if_neg hcut]
  simp only [OnlySignRemains, remainsBefore, remainsBehind, hnegative, hfront, exists_sign_iff]
  rw [counting_leftBehind_iff_of_cut tag _ _ hcut]
  exact ⟨fun ⟨hlead, htail⟩ => ⟨hlead, htail⟩, fun h => ⟨h.lead, h.tail⟩⟩

/-! ## Section 5: Which integers are read back -/

/-- The text of a product in a pattern without fraction digits. -/
theorem format_pattern_int {i product : Int64} {p : DecimalPattern} (symbols : Symbols)
    (hfraction : p.layout.minFraction = 0) (hproduct : i.toInt * p.factor = product.toInt) :
    format (int i) (.pattern p) symbols =
      sign (decide (product.toInt < 0)) ++ withCurrency symbols p.before ++
        arranged p.layout symbols (padZeros p.layout.minWhole (numeral product.toInt.natAbs)) ++
        withCurrency symbols p.after := by
  have hwhole : wholeDigits p.layout product.toInt.natAbs =
      padZeros p.layout.minWhole (numeral product.toInt.natAbs) :=
    if_neg fun h => absurd hfraction h.2.1.ne'
  rw [format_int_eq (.pattern p) symbols hproduct]
  simp only [NumberStyle.leading, NumberStyle.trailing, NumberStyle.layout, hwhole, integerFraction,
    hfraction, if_true, List.append_nil]

theorem parted_arranged (layout : Layout) (symbols : Symbols) (h : isNumeral digits = true) :
    Parted symbols.grouping digits (arranged layout symbols digits) := by
  rw [isNumeral, Bool.and_eq_true, Bool.not_eq_true', List.isEmpty_eq_false_iff, List.all_eq_true] at h
  unfold arranged
  cases layout.grouping with
  | none => exact .of_digits h.1 h.2
  | some size => exact .group size h.1 h.2

/-- **An integer is read back exactly when only its sign is left around the digits.** -/
theorem parse_format_pattern_eq_ok_iff (tag : LocaleTag) {pattern : Text} {p : DecimalPattern}
    (hp : DecimalPattern.parse? pattern = some p) (hfraction : p.layout.minFraction = 0)
    (hbefore : ∀ c ∈ p.before, c.isDigit = false) (hafter : ∀ c ∈ p.after, c.isDigit = false)
    {i product : Int64} (hproduct : i.toInt * p.factor = product.toInt)
    (hleast : product ≠ Int64.minValue) :
    let symbols := Symbols.ofLocale tag
    parse (format (int i) (.pattern p) symbols) (.pattern p) symbols = .ok (int i) ↔
      OnlySignRemains symbols p product.toInt := by
  intro symbols
  have hfactor : factorOf (.pattern p) ≠ 0 :=
    Int.natCast_ne_zero.mpr (DecimalPattern.factor_pos hp).ne'
  have hlead := withCurrency_not_digit tag hbefore
  have htail := withCurrency_not_digit tag hafter
  obtain ⟨hdigits, hvalue⟩ := isNumeral_padZeros p.layout.minWhole
    (isNumeral_numeral product.toInt.natAbs)
  rw [numeral_value] at hvalue
  have hparted := parted_arranged p.layout symbols hdigits
  -- what is left when the blanks at the ends and the first affix are gone
  obtain ⟨left, hleft, hremoved⟩ := exists_removeFirst_trim hparted hlead
    (decide (product.toInt < 0)) (withCurrency symbols p.after)
  rw [← format_pattern_int symbols hfraction hproduct] at hremoved
  have hleftOver : leftOver (.pattern p) symbols (format (int i) (.pattern p) symbols) =
      counting symbols (remainsBefore symbols p product.toInt) ++
        padZeros p.layout.minWhole (numeral product.toInt.natAbs) ++
        counting symbols (remainsBehind symbols p product.toInt) := by
    rw [leftOver, stripStyle_pattern, hremoved, counting_removeFirst hleft htail]
    rfl
  have hbehind : ∀ c ∈ remainsBehind symbols p product.toInt, c ∈ withCurrency symbols p.after := by
    intro c hc
    simp only [remainsBehind] at hc
    split at hc
    · exact mem_of_mem_leftBehind hc
    · exact mem_of_mem_leftBehind ((sublist_removeFirst _ _).subset hc)
  rw [parse_eq_int_iff hfactor hproduct hleast hdigits hvalue ?_ ?_ hleftOver, OnlySignRemains]
  · intro c hc
    exact leftBefore_not_digit _ hlead c
      ((sublist_removeFirst _ _).subset (mem_of_mem_counting hc))
  · intro c hc
    exact htail c (hbehind c (mem_of_mem_counting hc))

/-- **Which integers are read back in a decimal pattern.** Let a pattern ask for no fraction digits,
let its affixes hold no digits, and let the product of an integer and the factor of the pattern be in
range and not the least integer. If no affix is taken for something else, then what is read of the
written integer is this integer exactly when the affixes come off. If the number is not negative and
the first affix begins with a blank, it is this integer exactly when the affixes come off although
the first one is cut. One of the two is the case for every pattern and number. -/
theorem parse_format_pattern_iff (tag : LocaleTag) {pattern : Text} {p : DecimalPattern}
    (hp : DecimalPattern.parse? pattern = some p) (hfraction : p.layout.minFraction = 0)
    (hbefore : ∀ c ∈ p.before, c.isDigit = false) (hafter : ∀ c ∈ p.after, c.isDigit = false)
    (i : Int64) (hrange : (int64? (i.toInt * p.factor)).isSome = true)
    (hleast : i.toInt * p.factor ≠ -2 ^ 63) :
    let symbols := Symbols.ofLocale tag
    let product := i.toInt * p.factor
    let read := parse (format (int i) (.pattern p) symbols) (.pattern p) symbols
    let cut := trimLeft (withCurrency symbols p.before) ≠ withCurrency symbols p.before
    (Apart symbols p product → (read = .ok (int i) ↔ AffixesComeOff symbols p product)) ∧
      (0 ≤ product → cut → (read = .ok (int i) ↔ CutAffixesComeOff symbols p product)) ∧
      (Apart symbols p product ∨ 0 ≤ product ∧ cut) := by
  intro symbols product read cut
  obtain ⟨product', hsome⟩ := Option.isSome_iff_exists.mp hrange
  have hproduct : product = product'.toInt := (toInt_of_int64? hsome).symm
  have hleast' : product' ≠ Int64.minValue := fun heq =>
    hleast (hproduct.trans (heq ▸ Int64.toInt_minValue))
  have hread : read = .ok (int i) ↔ OnlySignRemains symbols p product := by
    rw [hproduct]
    exact parse_format_pattern_eq_ok_iff tag hp hfraction hbefore hafter hproduct hleast'
  refine ⟨fun hapart => hread.trans (onlySignRemains_iff_of_apart hapart),
    fun hpositive hcut => hread.trans (onlySignRemains_iff_of_cut hpositive hcut), ?_⟩
  -- the first part covers every number but those of the second one
  by_cases hnegative : product < 0
  · exact .inl (.inl hnegative)
  by_cases hwhole : trimLeft (withCurrency symbols p.before) = withCurrency symbols p.before
  · exact .inl (.inr (.inl hwhole))
  · exact .inr ⟨by omega, hwhole⟩

/-- Affixes with blanks and hyphens come off a negative number, and blanks off one that is not. -/
theorem parse_format_pattern_hyphens :
    let en : LocaleTag := ⟨"en".toList, none, some "US".toList, []⟩
    let symbols := Symbols.ofLocale en
    let p : DecimalPattern := ⟨"a - ¤".toList, " kg-".toList, ⟨1, 0, 0, some 3⟩, 1⟩
    let i : Int64 := -1234567
    let blanks : DecimalPattern := ⟨" ".toList, " ".toList, ⟨1, 0, 0, none⟩, 1⟩
    (DecimalPattern.parse? "a - ¤#,##0 kg-".toList = some p ∧ p.layout.minFraction = 0 ∧
      (∀ c ∈ p.before, c.isDigit = false) ∧ (∀ c ∈ p.after, c.isDigit = false) ∧
      (int64? (i.toInt * p.factor)).isSome = true ∧ i.toInt * p.factor ≠ -2 ^ 63 ∧
      Apart symbols p (i.toInt * p.factor) ∧
      format (int i) (.pattern p) symbols = "-a - $1,234,567 kg-".toList ∧
      parse (format (int i) (.pattern p) symbols) (.pattern p) symbols = .ok (int i)) ∧
    DecimalPattern.parse? " 0 ".toList = some blanks ∧ ¬Apart symbols blanks 5 ∧
      format (int 5) (.pattern blanks) symbols = " 5 ".toList ∧
      parse (format (int 5) (.pattern blanks) symbols) (.pattern blanks) symbols = .ok (int 5) := by
  intro en symbols p i blanks
  have hp : DecimalPattern.parse? "a - ¤#,##0 kg-".toList = some p := by decide
  have hbefore : ∀ c ∈ p.before, c.isDigit = false := not_digit_of_all (by decide)
  have hafter : ∀ c ∈ p.after, c.isDigit = false := not_digit_of_all (by decide)
  have hrange : (int64? (i.toInt * p.factor)).isSome = true := by decide
  have hleast : i.toInt * p.factor ≠ -2 ^ 63 := by decide
  have hapart : Apart symbols p (i.toInt * p.factor) := .inl (by decide)
  have hoff : AffixesComeOff symbols p (i.toInt * p.factor) :=
    ⟨fun _ => by decide +kernel, .inl (by decide), .inl (by decide +kernel)⟩
  have hread := ((parse_format_pattern_iff en hp rfl hbefore hafter i hrange hleast).1 hapart).mpr hoff
  have hblanks : DecimalPattern.parse? " 0 ".toList = some blanks := by decide
  have hcut := (parse_format_pattern_iff en hblanks rfl (not_digit_of_all (by decide))
    (not_digit_of_all (by decide)) 5 (by decide) (by decide)).2.1 (by decide) (by decide +kernel)
  have hoff' : CutAffixesComeOff symbols blanks ((5 : Int64).toInt * blanks.factor) :=
    ⟨.inl (by decide +kernel), .inl (by decide +kernel)⟩
  exact ⟨⟨hp, rfl, hbefore, hafter, hrange, hleast, hapart, by decide +kernel, hread⟩, hblanks,
    by unfold Apart; decide +kernel, by decide +kernel, hcut.mpr hoff'⟩

/-- A suffix that is a lone hyphen takes the minus sign, and a blank before a prefix keeps it from
being removed, or lets it be removed from the suffix: the number is not read, or it is read as the
negative one. -/
theorem parse_format_pattern_fails :
    let en : LocaleTag := ⟨"en".toList, none, some "US".toList, []⟩
    let symbols := Symbols.ofLocale en
    (∃ p, DecimalPattern.parse? "0-".toList = some p ∧
      format (int (-5)) (.pattern p) symbols = "-5-".toList ∧
      parse "-5-".toList (.pattern p) symbols = .error (.unparseable "-5-".toList "not a number")) ∧
    (∃ p, DecimalPattern.parse? " a0".toList = some p ∧
      format (int 5) (.pattern p) symbols = " a5".toList ∧
      parse " a5".toList (.pattern p) symbols = .error (.unparseable " a5".toList "not a number")) ∧
    (∃ p, DecimalPattern.parse? " 0 kg".toList = some p ∧
      format (int 5) (.pattern p) symbols = " 5 kg".toList ∧
      parse " 5 kg".toList (.pattern p) symbols =
        .error (.unparseable " 5 kg".toList "not a number")) ∧
    ∃ p, DecimalPattern.parse? " -0".toList = some p ∧
      format (int 5) (.pattern p) symbols = " -5".toList ∧
      parse " -5".toList (.pattern p) symbols = .ok (int (-5)) := by
  refine ⟨⟨⟨[], "-".toList, ⟨1, 0, 0, none⟩, 1⟩, ?_⟩, ⟨⟨" a".toList, [], ⟨1, 0, 0, none⟩, 1⟩, ?_⟩,
    ⟨⟨" ".toList, " kg".toList, ⟨1, 0, 0, none⟩, 1⟩, ?_⟩,
    ⟨⟨" -".toList, [], ⟨1, 0, 0, none⟩, 1⟩, ?_⟩⟩
  · decide +kernel
  · decide +kernel
  · decide +kernel
  · decide +kernel

end

end Number

end MessageCatalog
