import MessageCatalog.Proofs.WrittenIntegers

/-!
# The text of an integer in every style

A style says what stands before and after the digits of a number, how many digits there are at
least, and how they are grouped. An integer has no fraction of its own, so that its fraction digits
are the zeros that the style asks for.

## Main statements

* `inGroups_group` : grouping puts separators between parts of one size
* `digits_int_layout` : the digits of an integer in any layout
* `format_int_style` : the text of an integer in any style
-/

namespace MessageCatalog

open Text

/-! ## Section 1: Parts of a style -/

namespace Symbols

/-- The currencies there are. -/
def currencies : List Currency :=
  [⟨"$".toList, true, false, 2⟩, ⟨"£".toList, true, false, 2⟩, ⟨"¥".toList, true, false, 0⟩,
    ⟨"¥".toList, true, false, 2⟩, ⟨"₩".toList, true, false, 0⟩, ⟨"₹".toList, true, false, 2⟩,
    ⟨"CHF".toList, true, true, 2⟩, ⟨"R$".toList, true, true, 2⟩, ⟨"₽".toList, false, true, 2⟩,
    ⟨"€".toList, true, false, 2⟩, ⟨"€".toList, true, true, 2⟩, ⟨"€".toList, false, true, 2⟩,
    ⟨"¤".toList, true, false, 2⟩, ⟨"¤".toList, false, true, 2⟩]

theorem currency_mem (tag : LocaleTag) : (ofLocale tag).currency ∈ currencies := by
  have hite : ∀ (c : Prop) [Decidable c] {a b : Currency}, a ∈ currencies → b ∈ currencies →
      (if c then a else b) ∈ currencies := by
    intro c _ a b ha hb
    split
    · exact ha
    · exact hb
  show currencyOf tag ∈ currencies
  unfold currencyOf
  repeat' apply hite
  all_goals decide

/-- The symbol of a currency is the generic sign or does not hold it. -/
theorem currency_symbol_cases (tag : LocaleTag) :
    (ofLocale tag).currency.symbol = ['¤'] ∨ '¤' ∉ (ofLocale tag).currency.symbol := by
  have hall : ∀ c ∈ currencies, c.symbol = ['¤'] ∨ '¤' ∉ c.symbol := by decide
  exact hall _ (currency_mem tag)

end Symbols

namespace NumberStyle

/-- What a style writes between the sign and the digits. -/
def leading (symbols : Symbols) : NumberStyle → Text
  | .currency =>
    if symbols.currency.leads then
      symbols.currency.symbol ++ if symbols.currency.spaced then [noBreakSpace] else []
    else []
  | .pattern p => Number.withCurrency symbols p.before
  | _ => []

/-- What a style writes after the digits. -/
def trailing (symbols : Symbols) : NumberStyle → Text
  | .percent => symbols.percentSeparator.toList ++ ['%']
  | .currency => if symbols.currency.leads then [] else noBreakSpace :: symbols.currency.symbol
  | .pattern p => Number.withCurrency symbols p.after
  | _ => []

/-- The layout of the digits in a style. -/
def layout (symbols : Symbols) : NumberStyle → Layout
  | .standard => Layout.standard
  | .integer | .percent => Layout.whole
  | .currency => Layout.fixed symbols.currency.digits
  | .pattern p => p.layout

/-- A style whose decimal pattern, if it is one, has been read from a text. -/
def Accepted (style : NumberStyle) : Prop :=
  ∀ p, style = .pattern p → ∃ pattern, DecimalPattern.parse? pattern = some p

/-- **No style has empty groups.** -/
theorem grouping_pos_of_accepted {style : NumberStyle} (h : style.Accepted) (symbols : Symbols)
    {size : Nat} (hsize : (style.layout symbols).grouping = some size) : 0 < size := by
  have hthree : some 3 = some size → 0 < size := by
    rintro ⟨⟩
    decide
  cases style with
  | pattern p =>
    obtain ⟨_, hp⟩ := h p rfl
    exact DecimalPattern.grouping_pos hp hsize
  | standard => exact hthree hsize
  | integer => exact hthree hsize
  | percent => exact hthree hsize
  | currency => exact hthree hsize

end NumberStyle

/-! ## Section 2: Groups -/

/-- **A row of digits in groups**: a separator stands before every part but the first. These parts
have one size, and the first one is not empty and not longer. -/
def InGroups (size : Nat) (separator : Char) (digits text : Text) : Prop :=
  ∃ (first : Text) (rest : List Text), digits = first ++ rest.flatten ∧
    text = first ++ rest.flatMap (separator :: ·) ∧
    first ≠ [] ∧ first.length ≤ size ∧ ∀ part ∈ rest, part.length = size

/-- Digits as a layout writes them: in groups, or as they are. -/
def Layout.Arranges (layout : Layout) (symbols : Symbols) (digits text : Text) : Prop :=
  match layout.grouping with
  | some size => InGroups size symbols.grouping digits text
  | none => text = digits

namespace Number

theorem length_flatten_of_length {size : Nat} {parts : List Text}
    (h : ∀ part ∈ parts, part.length = size) : parts.flatten.length = parts.length * size := by
  rw [List.length_flatten, List.map_congr_left h, List.map_const', List.sum_replicate_nat]

/-- **Grouping puts separators between parts of one size.** -/
theorem inGroups_group {size : Nat} (hsize : 0 < size) (separator : Char) {digits : Text}
    (h : digits ≠ []) : InGroups size separator digits (group size separator digits) := by
  induction digits with
  | nil => exact absurd rfl h
  | cons c cs ih =>
    by_cases hcs : cs = []
    · subst hcs
      exact ⟨[c], [], rfl, rfl, List.cons_ne_nil _ _, hsize, fun _ hpart => absurd hpart
        List.not_mem_nil⟩
    · obtain ⟨first, rest, hdigits, htext, hne, hle, hrest⟩ := ih hcs
      have hlength : cs.length = first.length + rest.length * size := by
        rw [hdigits, List.length_append, length_flatten_of_length hrest]
      have hpos : 0 < first.length := List.length_pos_iff.mpr hne
      unfold group
      split
      · -- the first part is full, and the digit before it begins a new one
        rename_i hfull
        have hfirst : first.length = size := by
          have hmod : first.length % size = 0 := by
            rw [← Nat.add_mul_mod_self_right first.length rest.length size, ← hlength]
            exact hfull.2
          by_contra hlt
          rw [Nat.mod_eq_of_lt (by omega)] at hmod
          omega
        refine ⟨[c], first :: rest, by simp [hdigits], by simp [htext], List.cons_ne_nil _ _, hsize,
          ?_⟩
        intro part hpart
        obtain rfl | hpart := List.mem_cons.mp hpart
        · exact hfirst
        · exact hrest part hpart
      · rename_i hroom
        have hlt : first.length ≠ size := by
          intro hfirst
          apply hroom
          refine ⟨hcs, ?_⟩
          rw [hlength, hfirst, Nat.add_mul_mod_self_right, Nat.mod_self]
        exact ⟨c :: first, rest, by simp [hdigits], by simp [htext], List.cons_ne_nil _ _,
          by simp only [List.length_cons]; omega, hrest⟩

/-! ## Section 3: The digits of an integer -/

theorem numeral_eq_zero_iff {n : Nat} : numeral n = ['0'] ↔ n = 0 := by
  constructor
  · intro h
    rw [← numeral_value n, h]
    rfl
  · rintro rfl
    rfl

/-- A number whose digits are all zero is zero, with zeros before them or not. -/
theorem all_zero_padZeros_iff {width n : Nat} :
    (padZeros width (numeral n)).all (· == '0') = true ↔ n = 0 := by
  constructor
  · intro h
    apply eq_zero_of_numeral
    rw [List.all_eq_true] at h ⊢
    exact fun c hc => h c (List.mem_append_right _ hc)
  · rintro rfl
    rw [List.all_eq_true]
    intro c hc
    obtain hc | hc := List.mem_append.mp hc
    · exact beq_iff_eq.mpr (List.eq_of_mem_replicate hc)
    · obtain rfl := List.mem_singleton.mp (show c ∈ ['0'] from hc)
      rfl

/-- The whole digits of a natural number in a layout: a lone zero is left out when no whole digit is
asked for and a fraction follows. -/
def wholeDigits (layout : Layout) (n : Nat) : Text :=
  if layout.minWhole = 0 ∧ 0 < layout.minFraction ∧ n = 0 then []
  else padZeros layout.minWhole (numeral n)

/-- The fraction that a layout gives to an integer. -/
def integerFraction (layout : Layout) (symbols : Symbols) : Text :=
  if layout.minFraction = 0 then []
  else symbols.decimal :: List.replicate layout.minFraction '0'

theorem fitFraction_nil (least : Nat) : fitFraction least [] = List.replicate least '0' := by
  simp [fitFraction, List.rightpad]

theorem fitWhole_numeral_layout (layout : Layout) (n : Nat) :
    fitWhole layout.minWhole (numeral n) (List.replicate layout.minFraction '0') =
      wholeDigits layout n := by
  have hfraction : List.replicate layout.minFraction '0' ≠ [] ↔ 0 < layout.minFraction := by
    rw [Ne, List.replicate_eq_nil_iff, Nat.pos_iff_ne_zero]
  unfold fitWhole wholeDigits
  simp only [numeral_eq_zero_iff, hfraction]
  by_cases hdropped : layout.minWhole = 0 ∧ n = 0 ∧ 0 < layout.minFraction
  · obtain ⟨hwhole, hn, hpos⟩ := hdropped
    simp [hwhole, hn, hpos, padZeros, List.leftpad]
  · rw [if_neg hdropped, if_neg fun h => hdropped ⟨h.1, h.2.2, h.2.1⟩]

/-- Digits in the groups of a layout, if it asks for groups. -/
def arranged (layout : Layout) (symbols : Symbols) (digits : Text) : Text :=
  match layout.grouping with
  | some size => group size symbols.grouping digits
  | none => digits

theorem arranges_arranged {layout : Layout} {symbols : Symbols} {digits : Text}
    (hsize : ∀ size, layout.grouping = some size → 0 < size) (h : digits ≠ []) :
    layout.Arranges symbols digits (arranged layout symbols digits) := by
  unfold Layout.Arranges arranged
  cases hgrouping : layout.grouping with
  | none => rfl
  | some size => exact inGroups_group (hsize size hgrouping) symbols.grouping h

/-- **The digits of an integer in any layout**, and whether a minus sign belongs before them. -/
theorem digits_int_layout (i : Int64) (layout : Layout) (symbols : Symbols) :
    Number.digits (int i) layout symbols =
      (decide (i.toInt < 0),
        arranged layout symbols (wholeDigits layout i.toInt.natAbs) ++
          integerFraction layout symbols) := by
  have hlayOut : Number.digits (int i) layout symbols =
      layOut (decide (i.toInt < 0)) (numeral i.toInt.natAbs) [] layout symbols := rfl
  have hnegative : i.toInt < 0 → (wholeDigits layout i.toInt.natAbs).all (· == '0') = false := by
    intro hneg
    -- a negative number is not zero, so that its digits are written and one of them counts
    have hne : i.toInt.natAbs ≠ 0 := by omega
    rw [wholeDigits, if_neg fun h => hne h.2.2, ← Bool.not_eq_true, all_zero_padZeros_iff]
    exact hne
  rw [hlayOut]
  unfold layOut
  simp only [fitFraction_nil, fitWhole_numeral_layout]
  congr 1
  · by_cases hneg : i.toInt < 0
    · simp [hneg, hnegative hneg]
    · simp [hneg]
  · unfold integerFraction arranged
    by_cases hnone : layout.minFraction = 0
    · rw [if_pos (by rw [hnone]; rfl), if_pos hnone]
      exact (List.append_nil _).symm
    · have hzeros : List.replicate layout.minFraction '0' ≠ [] := by
        rw [Ne, List.replicate_eq_nil_iff]
        exact hnone
      cases layout.grouping <;> rw [if_neg hzeros, if_neg hnone]

/-! ## Section 4: The text of an integer -/

/-- **The text of a scaled integer** is its sign, what the style writes before the digits, the digits
and what it writes after them. -/
theorem format_int_eq {i product : Int64} (style : NumberStyle) (symbols : Symbols)
    (hproduct : i.toInt * factorOf style = product.toInt) :
    format (int i) style symbols =
      sign (decide (product.toInt < 0)) ++ style.leading symbols ++
        (arranged (style.layout symbols) symbols
            (wholeDigits (style.layout symbols) product.toInt.natAbs) ++
          integerFraction (style.layout symbols) symbols) ++
        style.trailing symbols := by
  have hscale : scale (int i) (factorOf style) = int product := scale_int hproduct
  have hunscaled : factorOf style = 1 → i = product := fun hone =>
    Int64.toInt_inj.mp ((Int.mul_one _).symm.trans (hone ▸ hproduct))
  cases style with
  | standard =>
    obtain rfl := hunscaled rfl
    rw [format, digits_int_layout]
    simp [NumberStyle.leading, NumberStyle.trailing, NumberStyle.layout]
  | integer =>
    obtain rfl := hunscaled rfl
    rw [format, digits_int_layout]
    simp [NumberStyle.leading, NumberStyle.trailing, NumberStyle.layout]
  | percent =>
    change scale (int i) 100 = int product at hscale
    rw [format, hscale, digits_int_layout]
    simp [NumberStyle.leading, NumberStyle.trailing, NumberStyle.layout]
  | currency =>
    obtain rfl := hunscaled rfl
    simp only [format, digits_int_layout, NumberStyle.leading, NumberStyle.trailing,
      NumberStyle.layout]
    by_cases hleads : symbols.currency.leads = true
    · simp [hleads]
    · simp [hleads]
  | pattern p =>
    change scale (int i) p.factor = int product at hscale
    rw [format, hscale, digits_int_layout]
    simp [NumberStyle.leading, NumberStyle.trailing, NumberStyle.layout]

theorem padZeros_numeral_ne_nil (width n : Nat) : padZeros width (numeral n) ≠ [] :=
  List.append_ne_nil_of_right_ne_nil _ Nat.toDigits_ne_nil

/-- **The text of an integer in any style.** No style has empty groups. The text of an integer whose
scaled value is in range is a minus sign if that value is negative, what the style writes before the
digits, the whole digits, the fraction and what the style writes after them. The whole digits are
those of the value, with zeros before them up to as many as the style asks for, in its groups; a zero
is left out when the style asks for no whole digit but for a fraction. The fraction is as many zeros
as the style asks for, after a decimal character, or nothing. -/
theorem format_int_style (tag : LocaleTag) (style : NumberStyle) (haccepted : style.Accepted) :
    let symbols := Symbols.ofLocale tag
    let layout := style.layout symbols
    (∀ size, layout.grouping = some size → 0 < size) ∧
      ∀ i : Int64, (int64? (i.toInt * factorOf style)).isSome = true →
        let scaled := i.toInt * factorOf style
        ∃ whole,
          format (int i) style symbols =
            (if scaled < 0 then ['-'] else []) ++ style.leading symbols ++ whole ++
              (if layout.minFraction = 0 then []
                else symbols.decimal :: List.replicate layout.minFraction '0') ++
              style.trailing symbols ∧
          if layout.minWhole = 0 ∧ 0 < layout.minFraction ∧ scaled = 0 then whole = []
          else layout.Arranges symbols (padZeros layout.minWhole (numeral scaled.natAbs)) whole := by
  intro symbols layout
  have hsize : ∀ size, layout.grouping = some size → 0 < size := fun _ =>
    NumberStyle.grouping_pos_of_accepted haccepted symbols
  refine ⟨hsize, ?_⟩
  intro i hrange scaled
  obtain ⟨product, hproduct⟩ := Option.isSome_iff_exists.mp hrange
  have htoInt : product.toInt = scaled := toInt_of_int64? hproduct
  refine ⟨arranged layout symbols (wholeDigits layout scaled.natAbs), ?_, ?_⟩
  · rw [format_int_eq style symbols htoInt.symm, htoInt]
    simp [sign, integerFraction, symbols, layout]
  · unfold wholeDigits
    simp only [Int.natAbs_eq_zero]
    split
    · -- nothing is left to be put in groups
      unfold arranged
      cases layout.grouping <;> rfl
    · exact arranges_arranged hsize (padZeros_numeral_ne_nil _ _)

/-- A negative percentage with a currency sign, groups and a fraction. -/
theorem format_int_style_percent :
    let en : LocaleTag := ⟨"en".toList, none, some "US".toList, []⟩
    let p : DecimalPattern := ⟨"¤".toList, "%".toList, ⟨2, 1, 1, some 3⟩, 100⟩
    let i : Int64 := -12345
    (NumberStyle.pattern p).Accepted ∧
      (int64? (i.toInt * factorOf (.pattern p))).isSome = true ∧
      ∃ whole,
        format (int i) (.pattern p) (Symbols.ofLocale en) =
          "-$".toList ++ whole ++ ".0%".toList ∧
        InGroups 3 ',' "1234500".toList whole := by
  intro en p i
  have hparse : DecimalPattern.parse? "¤#,#00.0%".toList = some p := by decide
  have haccepted : (NumberStyle.pattern p).Accepted := by
    rintro _ ⟨⟩
    exact ⟨_, hparse⟩
  have hrange : (int64? (i.toInt * factorOf (.pattern p))).isSome = true := by decide
  obtain ⟨whole, htext, hwhole⟩ := (format_int_style en (.pattern p) haccepted).2 i hrange
  refine ⟨haccepted, hrange, whole, htext.trans ?_, ?_⟩
  · simp only [List.append_assoc]
    rfl
  · have hdigits : padZeros 2 (numeral (i.toInt * 100).natAbs) = "1234500".toList := by
      decide +kernel
    rw [if_neg (by decide)] at hwhole
    rw [← hdigits]
    exact hwhole

end Number

end MessageCatalog
