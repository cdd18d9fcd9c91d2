import MessageCatalog.Locale.Tag
import Mathlib.Data.List.DropRight
import Mathlib.Data.List.Basic

/-!
# The forms of subtags

What the subtags of a locale tag are read as is in canonical case: it has the form that it was read
from, and is read as itself. A variant can end in a blank, and then it has four characters of which
the first is a digit.

## Main statements

* `trim_append` : trimming a text that begins with no blank reaches its last part only
* `language?_again`, `script?_again`, `region?_again`, `variant?_again` : what is read is read again
  as itself
* `of_endsInBlank` : which variants end in a blank
-/

namespace MessageCatalog

open Text

/-! ## Section 1: Characters -/

namespace Text

/-- A property of all ASCII characters is settled by looking at them. -/
theorem forall_ascii {P : Char → Prop} (h : ∀ n < 128, P (Char.ofNat n)) {c : Char}
    (hc : c.toNat < 128) : P c := by
  have hchar := h c.toNat hc
  rwa [Char.ofNat_toNat] at hchar

/-- A text has a last character of some kind, or none of that kind at all. -/
theorem exists_last_part (p : Char → Bool) (t : Text) :
    (∀ c ∈ t, p c = false) ∨
      ∃ before sep last, t = before ++ sep :: last ∧ p sep = true ∧ ∀ c ∈ last, p c = false := by
  induction t with
  | nil => exact .inl (by simp)
  | cons c t ih =>
    rcases ih with hnone | ⟨before, sep, last, rfl, hsep, hlast⟩
    · cases hc : p c with
      | false => exact .inl (by simpa [hc] using hnone)
      | true => exact .inr ⟨[], c, t, rfl, hc, hnone⟩
    · exact .inr ⟨c :: before, sep, last, rfl, hsep, hlast⟩

/-- Whether a text ends in a blank. -/
def endsInBlank (t : Text) : Bool := t.getLast?.any isBlank

theorem endsInBlank_eq_false_iff {t : Text} :
    endsInBlank t = false ↔ ∀ hne : t ≠ [], ¬isBlank (t.getLast hne) = true := by
  cases t using List.reverseRecOn <;> simp [endsInBlank]

theorem trimRight_eq_rdropWhile (t : Text) : trimRight t = t.rdropWhile isBlank := rfl

/-- A trimmed text does not end in a blank. -/
theorem endsInBlank_trim (t : Text) : endsInBlank (trim t) = false :=
  endsInBlank_eq_false_iff.mpr (List.rdropWhile_last_not isBlank (trimLeft t))

/-- A text that does not end in a blank has none to drop there. -/
theorem trimRight_of_not_endsInBlank {t : Text} (h : endsInBlank t = false) : trimRight t = t :=
  List.rdropWhile_eq_self_iff.mpr (endsInBlank_eq_false_iff.mp h)

theorem trimRight_ne_nil {t : Text} {c : Char} (hmem : c ∈ t) (hc : isBlank c = false) :
    trimRight t ≠ [] := by
  rw [trimRight_eq_rdropWhile, ne_eq, List.rdropWhile_eq_nil_iff]
  exact fun hall => absurd (hall c hmem) (by simp [hc])

/-- A text that ends in a blank is longer than what is left of it. -/
theorem length_trimRight_lt {t : Text} (h : endsInBlank t = true) :
    (trimRight t).length < t.length := by
  refine lt_of_le_of_ne (List.rdropWhile_prefix isBlank _).length_le fun hlength => ?_
  have hsame : trimRight t = t := (List.rdropWhile_prefix isBlank _).eq_of_length hlength
  have hends := endsInBlank_eq_false_iff.mpr (List.rdropWhile_eq_self_iff.mp hsame)
  exact Bool.false_ne_true (hends.symm.trans h)

/-- Trimming a text that begins with something else than a blank reaches its last part only. -/
theorem trim_append {front last : Text} (hhead : ∀ c ∈ (front ++ last).head?, isBlank c = false)
    (hlast : trimRight last ≠ []) : trim (front ++ last) = front ++ trimRight last := by
  have hleft : trimLeft (front ++ last) = front ++ last := by
    unfold trimLeft
    cases htext : front ++ last with
    | nil => rfl
    | cons c cs => exact List.dropWhile_cons_of_neg (by simp [hhead c (by simp [htext])])
  have hright : last.reverse.dropWhile isBlank ≠ [] := by
    simpa [trimRight] using hlast
  unfold trim
  rw [hleft, trimRight, List.reverse_append, List.dropWhile_append, if_neg (by simpa using hright),
    List.reverse_append, List.reverse_reverse]
  rfl

end Text

namespace LocaleTag

/-- A character that divides the subtags of a tag. -/
def isSeparator (c : Char) : Bool := c == '-' || c == '_'

theorem subtags_eq (t : Text) : subtags t = t.splitOnP isSeparator := rfl

theorem isLetter_iff {c : Char} : isLetter c = true ↔
    (65 ≤ c.toNat ∧ c.toNat ≤ 90) ∨ (97 ≤ c.toNat ∧ c.toNat ≤ 122) := by
  unfold isLetter Char.isAlpha Char.isUpper Char.isLower
  simp [UInt32.le_iff_toNat_le]

theorem isDigit_iff {c : Char} : c.isDigit = true ↔ 48 ≤ c.toNat ∧ c.toNat ≤ 57 := by
  unfold Char.isDigit
  simp [UInt32.le_iff_toNat_le]

theorem isAlnum_iff {c : Char} : isAlnum c = true ↔ isLetter c = true ∨ c.isDigit = true := by
  rw [isAlnum, Char.isAlphanum, Bool.or_eq_true]
  rfl

theorem ascii_of_isAlnum {c : Char} (h : isAlnum c = true) : c.toNat < 128 := by
  rw [isAlnum_iff, isLetter_iff, isDigit_iff] at h
  omega

theorem isAlnum_of_isLetter {c : Char} (h : isLetter c = true) : isAlnum c = true :=
  isAlnum_iff.mpr (.inl h)

/-- Letters and digits neither divide subtags nor are blank. -/
theorem not_separator_of_isAlnum {c : Char} (h : isAlnum c = true) :
    isSeparator c = false ∧ isBlank c = false := by
  have hall : ∀ n < 128, isAlnum (Char.ofNat n) = true →
      isSeparator (Char.ofNat n) = false ∧ isBlank (Char.ofNat n) = false := by decide +kernel
  exact forall_ascii (P := fun c => isAlnum c = true → isSeparator c = false ∧ isBlank c = false)
    hall (ascii_of_isAlnum h) h

/-- A character and its small form are of the same kinds. -/
structure SameKinds (c d : Char) : Prop where
  alnum : isAlnum d = isAlnum c
  letter : isLetter d = isLetter c
  digit : d.isDigit = c.isDigit
  separator : isSeparator d = isSeparator c
  blank : isBlank d = isBlank c
  range : 0 < c.toNat → 0 < d.toNat ∧ d.toNat < 128

instance (c d : Char) : Decidable (SameKinds c d) :=
  decidable_of_iff (isAlnum d = isAlnum c ∧ isLetter d = isLetter c ∧ d.isDigit = c.isDigit ∧
      isSeparator d = isSeparator c ∧ isBlank d = isBlank c ∧
      (0 < c.toNat → 0 < d.toNat ∧ d.toNat < 128))
    ⟨fun ⟨ha, hl, hd, hs, hb, hr⟩ => ⟨ha, hl, hd, hs, hb, hr⟩,
      fun ⟨ha, hl, hd, hs, hb, hr⟩ => ⟨ha, hl, hd, hs, hb, hr⟩⟩

theorem sameKinds_toLower {c : Char} (h : c.toNat < 128) : SameKinds c c.toLower :=
  forall_ascii (P := fun c => SameKinds c c.toLower) (by decide +kernel) h

theorem toLower_toLower {c : Char} (h : c.toNat < 128) : c.toLower.toLower = c.toLower :=
  forall_ascii (P := fun c => c.toLower.toLower = c.toLower) (by decide +kernel) h

/-- The capital of a letter is a letter that keeps its form, and not that of the small letter. -/
theorem toUpper_letter {c : Char} (h : isLetter c = true) :
    isLetter c.toUpper = true ∧ c.toUpper.toUpper = c.toUpper ∧ c.toUpper ≠ c.toLower := by
  have hall : ∀ n < 128, isLetter (Char.ofNat n) = true →
      isLetter (Char.ofNat n).toUpper = true ∧
        (Char.ofNat n).toUpper.toUpper = (Char.ofNat n).toUpper ∧
        (Char.ofNat n).toUpper ≠ (Char.ofNat n).toLower := by decide +kernel
  exact forall_ascii (P := fun c => isLetter c = true →
    isLetter c.toUpper = true ∧ c.toUpper.toUpper = c.toUpper ∧ c.toUpper ≠ c.toLower)
    hall (ascii_of_isAlnum (isAlnum_of_isLetter h)) h

theorem compare_letter_digit {c d : Char} (hc : isLetter c = true) (hd : d.isDigit = true) :
    compare c d = .gt := by
  rw [isLetter_iff] at hc
  rw [isDigit_iff] at hd
  have hlt : d.toNat < c.toNat := by omega
  exact Std.OrientedCmp.gt_of_lt (compareOfLessAndEq_eq_lt.mpr hlt)

/-! ## Section 2: The forms of subtags -/

section

variable {s t : Text}

theorem lower_lower (h : ∀ c ∈ s, c.toNat < 128) : lower (lower s) = lower s := by
  rw [lower, lower, List.map_map]
  exact List.map_congr_left fun c hc => toLower_toLower (h c hc)

theorem mem_lower {d : Char} (h : d ∈ lower s) (hascii : ∀ c ∈ s, c.toNat < 128) :
    ∃ c ∈ s, d = c.toLower ∧ SameKinds c d := by
  obtain ⟨c, hc, rfl⟩ := List.mem_map.mp h
  exact ⟨c, hc, rfl, sameKinds_toLower (hascii c hc)⟩

theorem ascii_of_letters (h : s.all isLetter = true) : ∀ c ∈ s, c.toNat < 128 := fun c hc =>
  ascii_of_isAlnum (isAlnum_of_isLetter (List.all_eq_true.mp h c hc))

theorem all_isAlnum_of_letters (h : s.all isLetter = true) : s.all isAlnum = true :=
  List.all_eq_true.mpr fun c hc => isAlnum_of_isLetter (List.all_eq_true.mp h c hc)

theorem all_isLetter_lower (h : s.all isLetter = true) : (lower s).all isLetter = true := by
  rw [List.all_eq_true]
  intro d hd
  obtain ⟨c, hc, -, hkinds⟩ := mem_lower hd (ascii_of_letters h)
  rw [hkinds.letter]
  exact List.all_eq_true.mp h c hc

theorem all_isAlnum_lower (h : s.all isAlnum = true) : (lower s).all isAlnum = true := by
  rw [List.all_eq_true] at h ⊢
  intro d hd
  obtain ⟨c, hc, -, hkinds⟩ := mem_lower hd fun c hc => ascii_of_isAlnum (h c hc)
  rw [hkinds.alnum]
  exact h c hc

/-- Letters and digits end in no blank. -/
theorem endsInBlank_of_isAlnum (h : s.all isAlnum = true) : endsInBlank s = false := by
  unfold endsInBlank
  cases hlast : s.getLast? with
  | none => rfl
  | some c =>
    exact (not_separator_of_isAlnum (List.all_eq_true.mp h c (List.mem_of_getLast? hlast))).2

theorem endsInBlank_lower (h : ∀ c ∈ s, c.toNat < 128) : endsInBlank (lower s) = endsInBlank s := by
  unfold endsInBlank lower
  rw [List.getLast?_map]
  cases hlast : s.getLast? with
  | none => rfl
  | some c => exact (sameKinds_toLower (h c (List.mem_of_getLast? hlast))).blank

end

/-! ## Section 3: Languages, scripts and regions -/

section

variable {s t : Text}

theorem language?_eq_some_iff : language? s = some t ↔
    (s.length = 2 ∨ s.length = 3 ∨ (5 ≤ s.length ∧ s.length ≤ 8)) ∧ s.all isLetter = true ∧
      t = lower s := by
  unfold language?
  rw [Option.ite_none_right_eq_some, and_assoc, Option.some.injEq, eq_comm (a := t)]

/-- **A language is read again as itself.** -/
theorem language?_again (h : language? s = some t) :
    language? t = some t ∧ t ≠ [] ∧ t.all isLetter = true := by
  obtain ⟨hlength, hletters, rfl⟩ := language?_eq_some_iff.mp h
  have hlength' : (lower s).length = s.length := List.length_map _
  refine ⟨language?_eq_some_iff.mpr ⟨hlength' ▸ hlength, all_isLetter_lower hletters, ?_⟩, ?_,
    all_isLetter_lower hletters⟩
  · exact (lower_lower (ascii_of_letters hletters)).symm
  · exact List.ne_nil_of_length_pos (by omega)

theorem script?_eq_some_iff : script? s = some t ↔
    s.length = 4 ∧ s.all isLetter = true ∧ ∃ c cs, s = c :: cs ∧ t = c.toUpper :: lower cs := by
  unfold script?
  constructor
  · intro h
    split at h
    · rename_i hform
      cases s with
      | nil => cases h
      | cons c cs => exact ⟨hform.1, hform.2, c, cs, rfl, (Option.some.inj h).symm⟩
    · cases h
  · rintro ⟨hlength, hletters, c, cs, rfl, rfl⟩
    rw [if_pos ⟨hlength, hletters⟩]

/-- **A script is read again as itself.** -/
theorem script?_again (h : script? s = some t) :
    script? t = some t ∧ t.length = 4 ∧ t.all isLetter = true := by
  obtain ⟨hlength, hletters, c, cs, rfl, rfl⟩ := script?_eq_some_iff.mp h
  rw [List.all_cons, Bool.and_eq_true] at hletters
  obtain ⟨hcapital, hkept, -⟩ := toUpper_letter hletters.1
  have hletters' : (c.toUpper :: lower cs).all isLetter = true := by
    rw [List.all_cons, hcapital, all_isLetter_lower hletters.2]
    rfl
  have hlength' : (c.toUpper :: lower cs).length = 4 := by simpa [lower] using hlength
  refine ⟨script?_eq_some_iff.mpr ⟨hlength', hletters', _, _, rfl, ?_⟩, hlength', hletters'⟩
  rw [hkept, lower_lower (ascii_of_letters hletters.2)]

theorem region?_eq_some_iff : region? s = some t ↔
    (s.length = 2 ∧ s.all isLetter = true ∧ t = s.map Char.toUpper) ∨
      (s.length = 3 ∧ s.all Char.isDigit = true ∧ t = s) := by
  unfold region?
  constructor
  · intro h
    split at h
    · rename_i hform
      exact .inl ⟨hform.1, hform.2, (Option.some.inj h).symm⟩
    · split at h
      · rename_i hform
        exact .inr ⟨hform.1, hform.2, (Option.some.inj h).symm⟩
      · cases h
  · rintro (⟨hlength, hletters, rfl⟩ | ⟨hlength, hdigits, rfl⟩)
    · rw [if_pos ⟨hlength, hletters⟩]
    · rw [if_neg fun hform => by omega, if_pos ⟨hlength, hdigits⟩]

/-- **A region is read again as itself.** -/
theorem region?_again (h : region? s = some t) :
    region? t = some t ∧ (t.length = 2 ∨ t.length = 3) ∧ t.all isAlnum = true := by
  rcases region?_eq_some_iff.mp h with ⟨hlength, hletters, rfl⟩ | ⟨hlength, hdigits, rfl⟩
  · have hcapital : ∀ c ∈ s, isLetter c.toUpper = true ∧ c.toUpper.toUpper = c.toUpper := by
      intro c hc
      obtain ⟨hcapital, hkept, -⟩ := toUpper_letter (List.all_eq_true.mp hletters c hc)
      exact ⟨hcapital, hkept⟩
    have hlength' : (s.map Char.toUpper).length = 2 := by simpa using hlength
    have hletters' : (s.map Char.toUpper).all isLetter = true := by
      rw [List.all_map, List.all_eq_true]
      exact fun c hc => (hcapital c hc).1
    refine ⟨region?_eq_some_iff.mpr (.inl ⟨hlength', hletters', ?_⟩), .inl hlength',
      all_isAlnum_of_letters hletters'⟩
    rw [List.map_map]
    exact List.map_congr_left fun c hc => (hcapital c hc).2.symm
  · refine ⟨h, .inr hlength, List.all_eq_true.mpr fun c hc => ?_⟩
    exact isAlnum_iff.mpr (.inr (List.all_eq_true.mp hdigits c hc))

/-! ## Section 4: Variants -/

/-- What is read as a variant: five to eight letters and digits, or four characters that begin with
a digit or end with three letters and digits. -/
def IsVariant (s : Text) : Prop :=
  (5 ≤ s.length ∧ s.length ≤ 8 ∧ s.all isAlnum = true) ∨
    (s.length = 4 ∧ (∀ c ∈ s, 0 < c.toNat ∧ c.toNat < 128) ∧
      ∃ c cs, s = c :: cs ∧ (c.isDigit = true ∨ cs.all isAlnum = true))

theorem variant?_eq_some_iff : variant? s = some t ↔ IsVariant s ∧ t = lower s := by
  have hchars : s.all (fun c => decide (0 < c.toNat ∧ c.toNat < 128)) = true ↔
      ∀ c ∈ s, 0 < c.toNat ∧ c.toNat < 128 := by
    simp only [List.all_eq_true, decide_eq_true_eq]
  unfold variant? IsVariant
  constructor
  · intro h
    split at h
    · rename_i hform
      exact ⟨.inl hform, (Option.some.inj h).symm⟩
    · split at h
      · rename_i hform
        cases s with
        | nil => cases h
        | cons c cs =>
          simp only at h
          split at h
          · rename_i hkind
            exact ⟨.inr ⟨hform.1, hchars.mp hform.2, c, cs, rfl, Bool.or_eq_true_iff.mp hkind⟩,
              (Option.some.inj h).symm⟩
          · cases h
      · cases h
  · rintro ⟨hform | ⟨hlength, hrange, c, cs, rfl, hkind⟩, rfl⟩
    · rw [if_pos hform]
    · rw [if_neg fun hform => by omega, if_pos ⟨hlength, hchars.mpr hrange⟩]
      show (if (c.isDigit || cs.all isAlnum) = true then _ else _) = _
      rw [if_pos (Bool.or_eq_true_iff.mpr hkind)]

theorem ascii_of_isVariant (h : IsVariant s) : ∀ c ∈ s, c.toNat < 128 := by
  rcases h with ⟨-, -, halnum⟩ | ⟨-, hrange, -⟩
  · exact fun c hc => ascii_of_isAlnum (List.all_eq_true.mp halnum c hc)
  · exact fun c hc => (hrange c hc).2

theorem length_of_isVariant (h : IsVariant s) : 4 ≤ s.length := by
  rcases h with ⟨hlength, -, -⟩ | ⟨hlength, -, -⟩ <;> omega

/-- Whether a text is a variant depends on the kinds of its characters only. -/
theorem isVariant_lower (h : IsVariant s) : IsVariant (lower s) := by
  have hlength : (lower s).length = s.length := List.length_map _
  unfold IsVariant
  rw [hlength]
  rcases h with ⟨hmin, hmax, halnum⟩ | ⟨hfour, hrange, c, cs, rfl, hkind⟩
  · exact .inl ⟨hmin, hmax, all_isAlnum_lower halnum⟩
  · refine .inr ⟨hfour, fun d hd => ?_, c.toLower, lower cs, rfl, ?_⟩
    · obtain ⟨c, hc, -, hkinds⟩ := mem_lower hd fun c hc => (hrange c hc).2
      exact hkinds.range (hrange c hc).1
    · have hfirst := (sameKinds_toLower (hrange c List.mem_cons_self).2).digit
      exact hkind.imp (hfirst.trans ·) all_isAlnum_lower

/-- **A variant is read again as itself.** -/
theorem variant?_again (h : variant? s = some t) : variant? t = some t ∧ 4 ≤ t.length := by
  obtain ⟨hvariant, rfl⟩ := variant?_eq_some_iff.mp h
  refine ⟨variant?_eq_some_iff.mpr ⟨isVariant_lower hvariant, ?_⟩,
    length_of_isVariant (isVariant_lower hvariant)⟩
  exact (lower_lower (ascii_of_isVariant hvariant)).symm

/-- A variant has no separators when the text that it is read from has none. -/
theorem plain_of_variant? (h : variant? s = some t) (hplain : ∀ c ∈ s, isSeparator c = false) :
    ∀ c ∈ t, isSeparator c = false := by
  obtain ⟨hvariant, rfl⟩ := variant?_eq_some_iff.mp h
  intro d hd
  obtain ⟨c, hc, -, hkinds⟩ := mem_lower hd (ascii_of_isVariant hvariant)
  rw [hkinds.separator, hplain c hc]

/-- A variant ends in a blank when the text that it is read from does. -/
theorem endsInBlank_of_variant? (h : variant? s = some t) : endsInBlank t = endsInBlank s := by
  obtain ⟨hvariant, rfl⟩ := variant?_eq_some_iff.mp h
  exact endsInBlank_lower (ascii_of_isVariant hvariant)

/-- A variant that ends in a blank has four characters, the first of which is a digit. -/
theorem of_endsInBlank (h : variant? s = some t) (hblank : endsInBlank s = true) :
    s.length = 4 ∧ ∃ c cs, s = c :: cs ∧ c.isDigit = true := by
  rcases (variant?_eq_some_iff.mp h).1 with ⟨-, -, halnum⟩ | ⟨hlength, -, c, cs, rfl, hkind⟩
  · cases (endsInBlank_of_isAlnum halnum).symm.trans hblank
  · refine ⟨hlength, c, cs, rfl, hkind.resolve_right fun halnum => ?_⟩
    -- otherwise the last character is a letter or a digit
    have hne : cs ≠ [] := List.ne_nil_of_length_pos (by simp at hlength; omega)
    have hends := endsInBlank_of_isAlnum halnum
    rw [endsInBlank, ← List.getLast?_cons_of_ne_nil hne] at hends
    cases hends.symm.trans hblank

/-- A variant in small letters is not the script that it is read as. -/
theorem ne_of_script? (hvariant : variant? s = some s) (hscript : script? s = some t) : t ≠ s := by
  have hlower := (variant?_eq_some_iff.mp hvariant).2
  obtain ⟨-, hletters, c, cs, rfl, rfl⟩ := script?_eq_some_iff.mp hscript
  rw [List.all_cons, Bool.and_eq_true] at hletters
  intro heq
  have hsmall : c = c.toLower := (List.cons.inj hlower).1
  exact (toUpper_letter hletters.1).2.2 ((List.cons.inj heq).1.trans hsmall)

/-! ## Section 5: Texts of another length -/

theorem script?_eq_none (h : s.length ≠ 4) : script? s = none :=
  Option.eq_none_iff_forall_ne_some.mpr fun _ hs => h (script?_eq_some_iff.mp hs).1

theorem region?_eq_none (h : 4 ≤ s.length) : region? s = none := by
  refine Option.eq_none_iff_forall_ne_some.mpr fun t ht => ?_
  rcases region?_eq_some_iff.mp ht with ⟨hlength, -⟩ | ⟨hlength, -⟩ <;> omega

theorem variant?_eq_none (h : s.length < 4) : variant? s = none := by
  refine Option.eq_none_iff_forall_ne_some.mpr fun t ht => ?_
  have hlength := length_of_isVariant (variant?_eq_some_iff.mp ht).1
  omega

end

end LocaleTag

end MessageCatalog
