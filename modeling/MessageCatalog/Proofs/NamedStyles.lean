import MessageCatalog.Message.Format
import Mathlib.Tactic.SplitIfs

/-!
# Named styles

A style is named, or it is an explicit pattern. A named number style is always read, and a named
date style stands for a pattern of the locale that has no fault. So only an explicit pattern can
make a number or a date fail to be written.

## Main statements

* `exists_parse_of_isNamed` : a named number style is read
* `toPattern_fault?` : the patterns of the locales have no fault
* `exists_format_of_named` : a date is written in every named style
* `exists_formatShort` : a date is written without a style
-/

namespace MessageCatalog

open Text

/-! ## Section 1: Names -/

/-- Whether a style is absent, blank, or one of some names; case and blanks around it do not
count. -/
def isNamed (names : List String) : Option Text → Bool
  | none => true
  | some raw => ("" :: names).any fun name => name.toList == lower (trim raw)

/-- The names of number styles. -/
def NumberStyle.names : List String := ["integer", "percent", "currency"]

/-- The names of date and time styles. -/
def DateStyle.names : List String := ["short", "medium", "long", "full"]

/-- Whether a placeholder for a number, a date or a time has an explicit pattern. -/
def Placeholder.hasPattern (p : Placeholder) : Bool :=
  match p.format with
  | some ⟨.number, style⟩ => !isNamed NumberStyle.names style
  | some ⟨.date, style⟩ => !isNamed DateStyle.names style
  | some ⟨.time, style⟩ => !isNamed DateStyle.names style
  | _ => false

/-- **A named number style is read.** -/
theorem NumberStyle.exists_parse_of_isNamed {style : Option Text}
    (h : isNamed NumberStyle.names style = true) : ∃ s, NumberStyle.parse style = .ok s := by
  cases style with
  | none => exact ⟨.standard, rfl⟩
  | some raw =>
    simp only [isNamed, NumberStyle.names, List.any_cons, List.any_nil, Bool.or_false,
      Bool.or_eq_true, beq_iff_eq] at h
    unfold NumberStyle.parse
    rcases h with h | h | h | h
    · exact ⟨.standard, by simp [← h]⟩
    · exact ⟨.integer, by simp [← h]⟩
    · exact ⟨.percent, by simp [← h]⟩
    · exact ⟨.currency, by simp [← h]⟩

/-- A named date style is read as no explicit pattern. -/
theorem DateStyle.parse_ne_pattern {style : Option Text}
    (h : isNamed DateStyle.names style = true) (source : Text) :
    DateStyle.parse style ≠ .pattern source := by
  cases style with
  | none => simp [DateStyle.parse]
  | some raw =>
    simp only [isNamed, DateStyle.names, List.any_cons, List.any_nil, Bool.or_false,
      Bool.or_eq_true, beq_iff_eq] at h
    unfold DateStyle.parse
    rcases h with h | h | h | h | h
    · simp [← h]
    · simp [← h]
    · simp [← h]
    · simp [← h]
    · simp [← h]

/-! ## Section 2: The patterns of the locales -/

namespace DateStyle

/-- A property of all date patterns of a locale. -/
def OfDatePatterns (check : DatePattern → Bool) (patterns : String × String × String × String) :
    Prop :=
  check (.parse patterns.1.toList) = true ∧ check (.parse patterns.2.1.toList) = true ∧
    check (.parse patterns.2.2.1.toList) = true ∧ check (.parse patterns.2.2.2.toList) = true

/-- A property of the time patterns of a locale, the one without seconds and the one with them. -/
def OfTimePatterns (clock : (seconds : Bool) → DatePattern → Bool) (patterns : String × String) :
    Prop :=
  clock false (.parse patterns.1.toList) = true ∧ clock true (.parse patterns.2.toList) = true

section

variable {check : DatePattern → Bool} {clock : Bool → DatePattern → Bool} {tag : LocaleTag}
  {style : DateStyle}

/-- Fixed patterns are given by their characters, and so need not be decoded to be looked at. -/
theorem ofDatePatterns_ofList {a b c d : Text} (ha : check (.parse a) = true)
    (hb : check (.parse b) = true) (hc : check (.parse c) = true) (hd : check (.parse d) = true) :
    OfDatePatterns check (.ofList a, .ofList b, .ofList c, .ofList d) := by
  unfold OfDatePatterns
  simp only [String.toList_ofList]
  exact ⟨ha, hb, hc, hd⟩

theorem ofDatePatterns_ite {c : Prop} [Decidable c] {a b : String × String × String × String}
    (ha : OfDatePatterns check a) (hb : OfDatePatterns check b) :
    OfDatePatterns check (if c then a else b) := by
  split
  · exact ha
  · exact hb

theorem ofTimePatterns_ofList {a b : Text} (ha : clock false (.parse a) = true)
    (hb : clock true (.parse b) = true) : OfTimePatterns clock (.ofList a, .ofList b) := by
  unfold OfTimePatterns
  simp only [String.toList_ofList]
  exact ⟨ha, hb⟩

/-- A named style stands for one of the date patterns. -/
theorem toPattern_date (h : OfDatePatterns check (datePatterns tag))
    (hstyle : ∀ source, style ≠ .pattern source) : check (style.toPattern .date tag) = true := by
  obtain ⟨hshort, hmedium, hlong, hfull⟩ := h
  cases style with
  | pattern source => exact absurd rfl (hstyle source)
  | short => exact hshort
  | medium => exact hmedium
  | long => exact hlong
  | full => exact hfull

/-- A named style stands for one of the time patterns; only the short one has no seconds. -/
theorem toPattern_time (h : OfTimePatterns clock (timePatterns tag))
    (hstyle : ∀ source, style ≠ .pattern source) :
    clock (decide (style ≠ .short)) (style.toPattern .time tag) = true := by
  obtain ⟨hshort, hother⟩ := h
  cases style with
  | pattern source => exact absurd rfl (hstyle source)
  | short => exact hshort
  | medium => exact hother
  | long => exact hother
  | full => exact hother

end

/-- A pattern without a fault. -/
def isSound (p : DatePattern) : Bool := p.fault?.isNone

theorem isSound_datePatterns (tag : LocaleTag) : OfDatePatterns isSound (datePatterns tag) := by
  -- one goal for each language that has patterns of its own
  unfold datePatterns
  repeat
    refine ofDatePatterns_ite (ofDatePatterns_ofList ?_ ?_ ?_ ?_) ?_
    iterate 4
      · decide +kernel
  exact ofDatePatterns_ofList (by decide +kernel) (by decide +kernel) (by decide +kernel)
    (by decide +kernel)

theorem isSound_timePatterns (tag : LocaleTag) :
    OfTimePatterns (fun _ => isSound) (timePatterns tag) := by
  unfold timePatterns
  split_ifs <;> exact ofTimePatterns_ofList (by decide +kernel) (by decide +kernel)

/-- **The patterns of the locales have no fault.** -/
theorem toPattern_fault? {style : DateStyle} (h : ∀ source, style ≠ .pattern source)
    (part : DatePart) (tag : LocaleTag) : (style.toPattern part tag).fault? = none := by
  rw [← Option.isNone_iff_eq_none]
  cases part with
  | date => exact toPattern_date (isSound_datePatterns tag) h
  | time => exact toPattern_time (isSound_timePatterns tag) h

end DateStyle

namespace DateTime

/-- **A date is written in every named style.** -/
theorem exists_format_of_named (v : DateTime) (part : DatePart) (tag : LocaleTag)
    {style : DateStyle} (h : ∀ source, style ≠ .pattern source) :
    ∃ text, v.format part style tag = .ok text := by
  unfold DateTime.format DatePattern.format
  rw [DateStyle.toPattern_fault? h]
  exact ⟨_, rfl⟩

/-- **A date is written without a style.** -/
theorem exists_formatShort (v : DateTime) (tag : LocaleTag) :
    ∃ text, v.formatShort tag = .ok text := by
  have hshort : ∀ source, DateStyle.short ≠ .pattern source := by simp
  obtain ⟨date, hdate⟩ := v.exists_format_of_named .date tag hshort
  obtain ⟨time, htime⟩ := v.exists_format_of_named .time tag hshort
  unfold DateTime.formatShort
  rw [hdate, htime]
  exact ⟨_, rfl⟩

/-- An explicit date pattern is the only thing that a date can be refused for. -/
theorem format_error {v : DateTime} {part : DatePart} {style : DateStyle} {tag : LocaleTag}
    {e : FormatError} (h : v.format part style tag = .error e) :
    ∃ pattern reason, e = .datePattern pattern reason := by
  obtain ⟨reason, _, rfl⟩ := DatePattern.format_eq_error_iff.mp h
  exact ⟨_, reason, rfl⟩

end DateTime

/-- A malformed decimal pattern is the only thing that a number style can be refused for. -/
theorem NumberStyle.parse_error {style : Option Text} {e : FormatError}
    (h : NumberStyle.parse style = .error e) : ∃ pattern, e = .numberPattern pattern := by
  unfold NumberStyle.parse at h
  split at h
  · cases h
  · rename_i raw
    simp only [] at h
    split_ifs at h
    split at h
    · cases h
    · exact ⟨raw, (Except.error.inj h).symm⟩

end MessageCatalog
