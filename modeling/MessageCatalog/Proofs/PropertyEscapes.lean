import MessageCatalog.Properties
import Mathlib.Data.List.Basic

/-!
# Escapes in property files

A character of a key or a value can be written in several ways: as it is, behind a backslash, as a
code unit of four hexadecimal digits, or as a pair of such units. Whatever the way, the characters
that mean something to a property file stand behind a backslash. So a written key or value is split
at no wrong place, does not go on with the next line, and is read back as it was.

## Main statements

* `guarded_of_spells` : in a written text every reserved character is escaped
* `takeKey_append` : a key is taken up to its end
* `continues_of_guarded` : a written text does not ask for another line
* `unescape_of_spells` : a written text is read back
* `exists_spells` : every text can be written
-/

namespace MessageCatalog.Properties

open Text

/-! ## Section 1: Ways to write a character -/

/-- The characters that are written behind a backslash, each with a character that stands for it
there. A tab and a form feed have a letter, and stand for themselves too. -/
def escapes : List (Char × Char) :=
  [('\\', '\\'), ('\t', 't'), ('\n', 'n'), ('\r', 'r'), ('\x0c', 'f'), (' ', ' '), ('=', '='),
    (':', ':'), ('#', '#'), ('!', '!'), ('\t', '\t'), ('\x0c', '\x0c')]

/-- The characters that may not stand for themselves. -/
def reserved : List Char := escapes.map Prod.fst

/-- A hexadecimal digit with its value, as a capital or a small letter. -/
def IsHexDigit (value : Nat) (c : Char) : Prop :=
  value < 16 ∧ (c = Nat.digitChar value ∨ c = (Nat.digitChar value).toUpper)

/-- Four hexadecimal digits with the code unit that they denote. -/
inductive UnitDigits : Nat → Text → Prop
  | mk {a b c d : Nat} {w x y z : Char} (ha : IsHexDigit a w) (hb : IsHexDigit b x)
      (hc : IsHexDigit c y) (hd : IsHexDigit d z) :
      UnitDigits (((a * 16 + b) * 16 + c) * 16 + d) [w, x, y, z]

/-- **The ways to write a character.** -/
inductive SpellsChar : Char → Text → Prop
  /-- A character that is not reserved stands for itself. -/
  | plain {c : Char} (h : c ∉ reserved) : SpellsChar c [c]
  /-- A reserved character stands behind a backslash. -/
  | escape {c letter : Char} (h : (c, letter) ∈ escapes) : SpellsChar c ['\\', letter]
  /-- A character of the basic plane may be written as one code unit. -/
  | unit {c : Char} {digits : Text} (h : UnitDigits c.toNat digits) :
      SpellsChar c ('\\' :: 'u' :: digits)
  /-- Any other character may be written as a pair of code units. -/
  | pair {c : Char} {high low : Nat} {digits digits' : Text}
      (hc : c.toNat = 0x10000 + (high - 0xD800) * 0x400 + (low - 0xDC00))
      (hhigh : 0xD800 ≤ high ∧ high ≤ 0xDBFF) (hlow : 0xDC00 ≤ low ∧ low ≤ 0xDFFF)
      (h : UnitDigits high digits) (h' : UnitDigits low digits') :
      SpellsChar c ('\\' :: 'u' :: digits ++ '\\' :: 'u' :: digits')

/-- The ways to write a text, character by character. -/
inductive Spells : Text → Text → Prop
  | nil : Spells [] []
  | cons {c : Char} {t written rest : Text} (hc : SpellsChar c written) (ht : Spells t rest) :
      Spells (c :: t) (written ++ rest)

/-! ## Section 2: Texts without bare reserved characters -/

/-- A text in which every reserved character stands behind a backslash, and no line break stands
anywhere. -/
inductive Guarded : Text → Prop
  | nil : Guarded []
  | plain {c : Char} {t : Text} (hc : c ∉ reserved) (ht : Guarded t) : Guarded (c :: t)
  | escape {c : Char} {t : Text} (hn : c ≠ '\n') (hr : c ≠ '\r') (ht : Guarded t) :
      Guarded ('\\' :: c :: t)

theorem Guarded.append {t t' : Text} (h : Guarded t) (h' : Guarded t') : Guarded (t ++ t') := by
  induction h with
  | nil => exact h'
  | plain hc _ ih => exact .plain hc ih
  | escape hn hr _ ih => exact .escape hn hr ih

theorem not_mem_reserved_of_isHexDigit {value : Nat} {c : Char} (h : IsHexDigit value c) :
    c ∉ reserved := by
  have hsmall : ∀ d < 16, Nat.digitChar d ∉ reserved := by decide
  have hcapital : ∀ d < 16, (Nat.digitChar d).toUpper ∉ reserved := by decide
  obtain ⟨hlt, rfl | rfl⟩ := h
  · exact hsmall value hlt
  · exact hcapital value hlt

theorem guarded_of_unitDigits {unit : Nat} {digits : Text} (h : UnitDigits unit digits) :
    Guarded ('\\' :: 'u' :: digits) := by
  obtain ⟨ha, hb, hc, hd⟩ := h
  refine .escape (by decide) (by decide) ?_
  exact .plain (not_mem_reserved_of_isHexDigit ha) (.plain (not_mem_reserved_of_isHexDigit hb)
    (.plain (not_mem_reserved_of_isHexDigit hc) (.plain (not_mem_reserved_of_isHexDigit hd) .nil)))

theorem guarded_of_spellsChar {c : Char} {written : Text} (h : SpellsChar c written) :
    Guarded written := by
  cases h with
  | plain h => exact .plain h .nil
  | @escape letter h =>
    have hletters : ∀ e ∈ escapes, e.2 ≠ '\n' ∧ e.2 ≠ '\r' := by decide
    obtain ⟨hn, hr⟩ := hletters _ h
    exact .escape hn hr .nil
  | unit h => exact guarded_of_unitDigits h
  | pair _ _ _ h h' => exact (guarded_of_unitDigits h).append (guarded_of_unitDigits h')

/-- **In a written text every reserved character is escaped.** -/
theorem guarded_of_spells {t written : Text} (h : Spells t written) : Guarded written := by
  induction h with
  | nil => exact .nil
  | cons hc _ ih => exact (guarded_of_spellsChar hc).append ih

/-! ## Section 3: Splitting and joining lines -/

/-- A character that is not reserved is no backslash, no line break, no pad and no sign. -/
theorem ne_of_not_mem_reserved {c : Char} (h : c ∉ reserved) :
    c ≠ '\\' ∧ c ≠ '\n' ∧ c ≠ '\r' ∧ isPad c = false ∧ ¬(c = '=' ∨ c = ':') ∧
      c ≠ '#' ∧ c ≠ '!' := by
  simp only [reserved, escapes, List.map_cons, List.map_nil, List.mem_cons, List.not_mem_nil,
    or_false, not_or] at h
  obtain ⟨hbackslash, htab, hn, hr, hf, hspace, heq, hcolon, hhash, hbang, _⟩ := h
  refine ⟨hbackslash, hn, hr, ?_, not_or.mpr ⟨heq, hcolon⟩, hhash, hbang⟩
  simp [isPad, hspace, htab, hf]

theorem not_mem_lineBreak_of_guarded {t : Text} (h : Guarded t) : '\n' ∉ t ∧ '\r' ∉ t := by
  induction h with
  | nil => simp
  | plain hc _ ih =>
    obtain ⟨_, hn, hr, _⟩ := ne_of_not_mem_reserved hc
    simp [ih, Ne.symm hn, Ne.symm hr]
  | escape hn hr _ ih => simp [ih, Ne.symm hn, Ne.symm hr]

/-- A written text begins with no pad, no separator and no sign of a comment. -/
theorem head_of_guarded {c : Char} {t : Text} (h : Guarded (c :: t)) :
    isPad c = false ∧ ¬(c = '=' ∨ c = ':') ∧ c ≠ '#' ∧ c ≠ '!' := by
  cases h with
  | plain hc _ => exact (ne_of_not_mem_reserved hc).2.2.2
  | escape _ _ _ => decide

/-- **A key is taken up to its end**: the split goes on behind it as if it had not been there. -/
theorem takeKey_append {key : Text} (h : Guarded key) (rest : Text) :
    takeKey false (key ++ rest) = (key ++ (takeKey false rest).1, (takeKey false rest).2) := by
  induction h with
  | nil => rfl
  | @plain c t hc _ ih =>
    obtain ⟨hbackslash, _, _, hpad, hsign, _⟩ := ne_of_not_mem_reserved hc
    have hplain : ¬(c = '=' ∨ c = ':' ∨ isPad c = true) := by
      rw [← or_assoc, hpad]
      simpa using hsign
    have hescaped : (c == '\\') = false := by simpa using hbackslash
    rw [List.cons_append, takeKey, if_neg hplain, hescaped, ih]
    rfl
  | @escape c t _ _ _ ih =>
    -- the character behind a backslash is taken whatever it is
    rw [List.cons_append, List.cons_append, takeKey, if_neg (by decide)]
    simp only [beq_self_eq_true, takeKey, ih, List.cons_append]

/-- Behind an even number of backslashes only those of the second text count. -/
theorem continues_append_eq {t : Text} (h : continues t = false) (t' : Text) :
    continues (t ++ t') = continues t' := by
  unfold continues at h ⊢
  rw [List.reverse_append, List.takeWhile_append]
  split
  · rename_i hall
    -- the second text is a row of backslashes, which goes on in the first
    rw [hall, List.length_reverse, List.length_append, List.length_reverse, Bool.eq_iff_iff]
    simp only [beq_eq_false_iff_ne, beq_iff_eq, ne_eq] at h ⊢
    omega
  · rfl

/-- Two texts of which neither asks for another line do not ask for one together. -/
theorem continues_append {t t' : Text} (h : continues t = false) (h' : continues t' = false) :
    continues (t ++ t') = false := (continues_append_eq h t').trans h'

theorem continues_singleton {c : Char} (h : c ≠ '\\') : continues [c] = false := by
  simp [continues, h]

/-- **A written text does not ask for another line.** -/
theorem continues_of_guarded {t : Text} (h : Guarded t) : continues t = false := by
  induction h with
  | nil => rfl
  | @plain c t hc _ ih =>
    exact continues_append (t := [c]) (continues_singleton (ne_of_not_mem_reserved hc).1) ih
  | @escape c t _ _ _ ih =>
    refine continues_append (t := ['\\', c]) ?_ ih
    by_cases hc : c = '\\'
    · subst hc
      rfl
    · simp [continues, hc]

/-! ## Section 4: Reading back -/

theorem hexValue?_of_isHexDigit {value : Nat} {c : Char} (h : IsHexDigit value c) :
    hexValue? c = some value := by
  have hsmall : ∀ d < 16, hexValue? (Nat.digitChar d) = some d := by decide
  have hcapital : ∀ d < 16, hexValue? (Nat.digitChar d).toUpper = some d := by decide
  obtain ⟨hlt, rfl | rfl⟩ := h
  · exact hsmall value hlt
  · exact hcapital value hlt

theorem takeUnit?_append {unit : Nat} {digits : Text} (h : UnitDigits unit digits) (rest : Text) :
    takeUnit? (digits ++ rest) = some (unit, rest) := by
  obtain @⟨a, b, c, d, w, x, y, z, ha, hb, hc, hd⟩ := h
  have hnumber : hexNumber? [w, x, y, z] = some (((a * 16 + b) * 16 + c) * 16 + d) := by
    simp only [hexNumber?, List.foldlM_cons, List.foldlM_nil, hexValue?_of_isHexDigit ha,
      hexValue?_of_isHexDigit hb, hexValue?_of_isHexDigit hc, hexValue?_of_isHexDigit hd,
      Option.map_some, Option.bind_eq_bind, Option.bind_some, Option.pure_def, Nat.mul_comm 16,
      Nat.zero_mul, Nat.zero_add]
  show (hexNumber? [w, x, y, z]).map (·, rest) = _
  rw [hnumber]
  rfl

/-- A code unit that is a character is read as that character. -/
theorem takeUnicode_unit {c : Char} {digits : Text} (h : UnitDigits c.toNat digits) (rest : Text) :
    takeUnicode (digits ++ rest) = (c, rest) := by
  have hvalid : c.toNat.isValidChar := c.valid
  have hhigh : isHighUnit c.toNat = false := by
    simp only [isHighUnit, decide_eq_false_iff_not]
    rcases hvalid with hlt | ⟨hlt, _⟩ <;> omega
  simp only [takeUnicode, takeUnit?_append h, hhigh, Bool.false_eq_true, if_false, unitChar,
    if_pos hvalid, Char.ofNat_toNat]

/-- A pair of code units is read as the character that they stand for together. -/
theorem takeUnicode_pair {c : Char} {high low : Nat} {digits digits' : Text}
    (hc : c.toNat = 0x10000 + (high - 0xD800) * 0x400 + (low - 0xDC00))
    (hhigh : 0xD800 ≤ high ∧ high ≤ 0xDBFF) (hlow : 0xDC00 ≤ low ∧ low ≤ 0xDFFF)
    (h : UnitDigits high digits) (h' : UnitDigits low digits') (rest : Text) :
    takeUnicode (digits ++ '\\' :: 'u' :: (digits' ++ rest)) = (c, rest) := by
  have hhighUnit : isHighUnit high = true := decide_eq_true hhigh
  have hlowUnit : isLowUnit low = true := decide_eq_true hlow
  have hafter : takeLowUnit? ('\\' :: 'u' :: (digits' ++ rest)) = some (low, rest) := by
    simp [takeLowUnit?, takeUnit?_append h', hlowUnit]
  simp only [takeUnicode, takeUnit?_append h, hhighUnit, if_true, hafter, ← hc, Char.ofNat_toNat]

theorem unescape_plain_cons {c : Char} (h : c ≠ '\\') (rest : Text) :
    unescape (c :: rest) = c :: unescape rest := by
  rw [unescape.eq_def]
  simp [h]

theorem unescape_unicode (rest : Text) :
    unescape ('\\' :: 'u' :: rest) = (takeUnicode rest).1 :: unescape (takeUnicode rest).2 := by
  rw [unescape.eq_def]
  simp

theorem unescape_letter {letter : Char} (h : letter ≠ 'u') (rest : Text) :
    unescape ('\\' :: letter :: rest) = escapeLetter letter :: unescape rest := by
  rw [unescape.eq_def]
  simp [h]

/-- **A written character is read back.** -/
theorem unescape_char {c : Char} {written : Text} (h : SpellsChar c written) (rest : Text) :
    unescape (written ++ rest) = c :: unescape rest := by
  cases h with
  | plain h => exact unescape_plain_cons (ne_of_not_mem_reserved h).1 rest
  | @escape letter h =>
    have hletters : ∀ e ∈ escapes, e.2 ≠ 'u' ∧ escapeLetter e.2 = e.1 := by decide
    obtain ⟨hu, hletter⟩ := hletters _ h
    show unescape ('\\' :: letter :: rest) = _
    rw [unescape_letter hu, hletter]
  | unit h =>
    rw [List.cons_append, List.cons_append, unescape_unicode, takeUnicode_unit h]
  | pair hc hhigh hlow h h' =>
    simp only [List.cons_append, List.append_assoc]
    rw [unescape_unicode, takeUnicode_pair hc hhigh hlow h h']

/-- **A written text is read back.** -/
theorem unescape_of_spells {t written : Text} (h : Spells t written) : unescape written = t := by
  induction h with
  | nil => simp [unescape]
  | cons hc _ ih => rw [unescape_char hc, ih]

/-! ## Section 5: Every text can be written -/

theorem exists_spellsChar (c : Char) : ∃ written, SpellsChar c written := by
  by_cases h : c ∈ reserved
  · obtain ⟨⟨_, letter⟩, hmem, rfl⟩ := List.mem_map.mp h
    exact ⟨_, .escape hmem⟩
  · exact ⟨_, .plain h⟩

theorem exists_spells (t : Text) : ∃ written, Spells t written := by
  induction t with
  | nil => exact ⟨_, .nil⟩
  | cons c t ih =>
    obtain ⟨written, hc⟩ := exists_spellsChar c
    obtain ⟨rest, ht⟩ := ih
    exact ⟨_, .cons hc ht⟩

end MessageCatalog.Properties
