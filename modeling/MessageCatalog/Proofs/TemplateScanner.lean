import MessageCatalog.Template.Parser
import MessageCatalog.Template.Printer
import Mathlib.Data.List.TakeWhile

/-!
# The template scanners

Two scanners read a template. The outer one resolves quotes and looks for placeholders; the inner
one reads the body of a placeholder and keeps its quotes. This module gives one equation for each
step of the outer scanner, says which bodies the inner one accepts, and undoes the division of a
body at its commas.

## Main statements

* `takeBody_eq_ok_iff` : a body is read exactly when its quotes and its inner braces close
* `splitBody_eq_join` : the parts of a body, joined by commas, are the body
* `readPlaceholder_eq_ok_iff` : a placeholder is read from the parts of its body
* `readFormat_eq_ok_iff` : what its type and style part say
-/

namespace MessageCatalog

namespace Text

/-! ## Section 1: Blanks and digits -/

theorem isBlank_or_mem_trim {t : Text} {c : Char} (h : c ∈ t) : isBlank c = true ∨ c ∈ trim t := by
  -- the same fact serves both ends
  have hdrop : ∀ {l : Text}, c ∈ l → isBlank c = true ∨ c ∈ l.dropWhile isBlank := by
    intro l hl
    rw [← List.takeWhile_append_dropWhile (p := isBlank) (l := l)] at hl
    rcases List.mem_append.mp hl with hl | hl
    · exact .inl (List.mem_takeWhile_imp hl)
    · exact .inr hl
  rcases hdrop h with hblank | hleft
  · exact .inl hblank
  · rcases hdrop (List.mem_reverse.mpr hleft) with hblank | hright
    · exact .inl hblank
    · exact .inr (List.mem_reverse.mpr hright)

theorem trim_of_not_blank {t : Text} (h : ∀ c ∈ t, isBlank c = false) : trim t = t := by
  have hdrop : ∀ {l : Text}, (∀ c ∈ l, isBlank c = false) → l.dropWhile isBlank = l := by
    intro l hl
    cases l with
    | nil => rfl
    | cons c rest => exact List.dropWhile_cons_of_neg (by simp [hl c List.mem_cons_self])
  rw [trim, trimLeft, hdrop h, trimRight, hdrop fun c hc => h c (List.mem_reverse.mp hc),
    List.reverse_reverse]

theorem isBlank_of_isDigit {c : Char} (h : c.isDigit = true) : isBlank c = false := by
  simp only [Char.isDigit, Bool.and_eq_true, decide_eq_true_eq] at h
  have h1 : 48 ≤ c.toNat := UInt32.le_iff_toNat_le.mp h.1
  have h2 : c.toNat ≤ 57 := UInt32.le_iff_toNat_le.mp h.2
  simp only [isBlank, Bool.or_eq_false_iff, Bool.and_eq_false_iff, decide_eq_false_iff_not,
    beq_eq_false_iff_ne]
  omega

theorem isDigit_of_mem_numeral {n : Nat} {c : Char} (h : c ∈ numeral n) : c.isDigit = true :=
  Nat.isDigit_of_mem_toDigits (by decide) (by decide) h

theorem isNumeral_numeral (n : Nat) : isNumeral (numeral n) = true := by
  have hne : numeral n ≠ [] := Nat.toDigits_ne_nil
  simp only [isNumeral, Bool.and_eq_true, Bool.not_eq_true', List.isEmpty_eq_false_iff,
    List.all_eq_true]
  exact ⟨hne, fun c hc => isDigit_of_mem_numeral hc⟩

end Text

namespace Template

open Text Segment

/-! ## Section 2: Steps of the outer scanner -/

theorem segmentsFrom_nil (pos : Nat) : segmentsFrom none pos [] = .ok [] := by
  rw [segmentsFrom]

/-- Two quotes in a row are a literal quote, inside and outside of quoted text. -/
theorem segmentsFrom_doubled (quote : Option Nat) (pos : Nat) (rest : Text) :
    segmentsFrom quote pos ('\'' :: '\'' :: rest) =
      (segmentsFrom quote (pos + 2) rest).map (consChar '\'') := by
  rw [segmentsFrom]

/-- A lone quote opens or closes quoted text. -/
theorem segmentsFrom_quote (quote : Option Nat) (pos : Nat) {rest : Text}
    (h : rest.head? ≠ some '\'') :
    segmentsFrom quote pos ('\'' :: rest) =
      segmentsFrom (if quote.isSome then none else some pos) (pos + 1) rest := by
  rw [segmentsFrom]
  · simp
  · rintro rest' _ rfl
    exact h rfl

/-- Any other character is literal, an opening brace only in quoted text. -/
theorem segmentsFrom_char {quote : Option Nat} (pos : Nat) {c : Char} (rest : Text)
    (hquote : c ≠ '\'') (hbrace : c = '{' → quote ≠ none) :
    segmentsFrom quote pos (c :: rest) =
      (segmentsFrom quote (pos + 1) rest).map (consChar c) := by
  have hopen : ¬(c = '{' ∧ quote = none) := fun h => hbrace h.1 h.2
  rw [segmentsFrom]
  · rw [if_neg hquote, if_neg hopen]
  · rintro rest' rfl
    exact absurd rfl hquote

/-- An opening brace outside quoted text begins a placeholder. -/
theorem segmentsFrom_placeholder {pos : Nat} {t body rest : Text} {p : Placeholder}
    (hbody : takeBody pos none 0 (pos + 1) t = .ok (body, rest))
    (hp : readPlaceholder body pos = .ok p) :
    segmentsFrom none pos ('{' :: t) =
      (segmentsFrom none (pos + body.length + 2) rest).map (Segment.placeholder p :: ·) := by
  rw [segmentsFrom]
  · rw [if_neg (by decide), if_pos ⟨rfl, rfl⟩]
    split
    · rename_i e he
      simp [hbody] at he
    · rename_i body' rest' he
      obtain ⟨rfl, rfl⟩ : body = body' ∧ rest = rest' := by simpa [hbody] using he
      simp only [hp]
  · rintro rest' h
    exact absurd h (by decide)

/-! ## Section 3: Bodies of placeholders -/

/-- A text whose quotes and inner braces close is read as the body before a closing brace. -/
theorem takeBody_append {start : Nat} {quote : Option Nat} {depth pos : Nat} {body rest : Text}
    (h : styleCloses quote.isSome depth body = true) :
    takeBody start quote depth pos (body ++ '}' :: rest) = .ok (body, rest) := by
  -- quote and depth are the state of the scanner, and the body closes from any state it is read in
  induction body generalizing quote depth pos with
  | nil =>
    cases quote with
    | some q => simp [styleCloses] at h
    | none =>
      have hdepth : depth = 0 := by simpa [styleCloses] using h
      simp [takeBody, hdepth]
  | cons c cs ih =>
    cases quote with
    | some q =>
      -- inside quotes only another quote matters
      have hrest : styleCloses (if c = '\'' then none else some q).isSome depth cs = true := by
        by_cases hc : c = '\''
        · simpa [styleCloses, hc] using h
        · have hne : (c != '\'') = true := bne_iff_ne.mpr hc
          simpa [styleCloses, hc, hne] using h
      simp [takeBody, ih hrest, Except.map]
    | none =>
      -- the brace that ends the body cannot stand inside it
      have hclosing : ¬(c = '}' ∧ depth = 0) := by
        rintro ⟨rfl, rfl⟩
        simp [styleCloses] at h
      have hrest : styleCloses (if c = '\'' then some pos else none).isSome
          (depthAfter c depth) cs = true := by
        unfold depthAfter
        by_cases hq : c = '\''
        · simpa [styleCloses, hq] using h
        · by_cases hl : c = '{'
          · simpa [styleCloses, hl] using h
          · by_cases hr : c = '}'
            · subst hr
              simp only [Option.isSome_none, styleCloses] at h
              simp at h ⊢
              exact h.2
            · simpa [styleCloses, hq, hl, hr] using h
      simp [takeBody, hclosing, ih hrest, Except.map]

/-- What is read as a body stands before a closing brace, and its quotes and inner braces close. -/
theorem closes_of_takeBody {start : Nat} {quote : Option Nat} {depth pos : Nat}
    {t body rest : Text} (h : takeBody start quote depth pos t = .ok (body, rest)) :
    t = body ++ '}' :: rest ∧ styleCloses quote.isSome depth body = true := by
  fun_induction takeBody start quote depth pos t generalizing body rest with
  | case1 => simp at h
  | case2 => simp at h
  | case3 q depth pos c cs ih =>
    -- inside quotes every character belongs to the body
    obtain ⟨⟨b, r⟩, hb, he⟩ := map_eq_ok_iff.mp h
    obtain ⟨rfl, rfl⟩ : c :: b = body ∧ r = rest := by simpa using he
    obtain ⟨rfl, hcloses⟩ := ih hb
    refine ⟨rfl, ?_⟩
    by_cases hc : c = '\''
    · simpa [styleCloses, hc] using hcloses
    · have hne : (c != '\'') = true := bne_iff_ne.mpr hc
      simpa [styleCloses, hc, hne] using hcloses
  | case4 depth pos c cs hc =>
    -- the closing brace
    obtain ⟨rfl, rfl⟩ : [] = body ∧ cs = rest := by simpa using h
    obtain ⟨rfl, rfl⟩ := hc
    exact ⟨rfl, rfl⟩
  | case5 depth pos c cs hc ih =>
    -- outside quotes the depth follows the braces
    obtain ⟨⟨b, r⟩, hb, he⟩ := map_eq_ok_iff.mp h
    obtain ⟨rfl, rfl⟩ : c :: b = body ∧ r = rest := by simpa using he
    obtain ⟨rfl, hcloses⟩ := ih hb
    refine ⟨rfl, ?_⟩
    unfold depthAfter at hcloses
    by_cases hq : c = '\''
    · simpa [styleCloses, hq] using hcloses
    · by_cases hl : c = '{'
      · simpa [styleCloses, hl] using hcloses
      · by_cases hr : c = '}'
        · subst hr
          have hdepth : depth ≠ 0 := fun h0 => hc ⟨rfl, h0⟩
          simpa [styleCloses, hdepth] using hcloses
        · simpa [styleCloses, hq, hl, hr] using hcloses

/-- **A body is read exactly when its quotes and its inner braces close.** -/
theorem takeBody_eq_ok_iff {start : Nat} {quote : Option Nat} {depth pos : Nat}
    {t body rest : Text} :
    takeBody start quote depth pos t = .ok (body, rest) ↔
      t = body ++ '}' :: rest ∧ styleCloses quote.isSome depth body = true := by
  constructor
  · exact closes_of_takeBody
  · rintro ⟨rfl, h⟩
    exact takeBody_append h

/-- A character that neither quotes nor opens or closes a brace. -/
def isPlain (c : Char) : Bool := c != '\'' && c != '{' && c != '}'

theorem styleCloses_append_of_plain {head : Text} (h : head.all isPlain = true) (depth : Nat)
    (t : Text) : styleCloses false depth (head ++ t) = styleCloses false depth t := by
  induction head with
  | nil => rfl
  | cons c cs ih =>
    rw [List.all_cons, Bool.and_eq_true] at h
    obtain ⟨hc, hcs⟩ := h
    simp only [isPlain, Bool.and_eq_true, bne_iff_ne, ne_eq] at hc
    obtain ⟨⟨hq, hl⟩, hr⟩ := hc
    rw [List.cons_append, styleCloses, if_neg hq, if_neg hl, if_neg hr, ih hcs]

/-! ## Section 4: The parts of a body -/

theorem breakAtComma_append {part : Text} (h : ∀ c ∈ part, c ≠ ',' ∧ c ≠ '\'') (rest : Text) :
    breakAtComma false (part ++ ',' :: rest) = (part, some rest) := by
  induction part with
  | nil => rfl
  | cons c cs ih =>
    obtain ⟨hcomma, hquote⟩ := h c List.mem_cons_self
    have ih := ih fun d hd => h d (List.mem_cons_of_mem _ hd)
    simp [breakAtComma, hcomma, hquote, ih]

theorem breakAtComma_of_not_mem {part : Text} (h : ∀ c ∈ part, c ≠ ',' ∧ c ≠ '\'') :
    breakAtComma false part = (part, none) := by
  induction part with
  | nil => rfl
  | cons c cs ih =>
    obtain ⟨hcomma, hquote⟩ := h c List.mem_cons_self
    have ih := ih fun d hd => h d (List.mem_cons_of_mem _ hd)
    simp [breakAtComma, hcomma, hquote, ih]

/-- A division at a comma loses nothing but the comma. -/
theorem eq_of_breakAtComma {quoted : Bool} {t part : Text} {rest : Option Text}
    (h : breakAtComma quoted t = (part, rest)) : t = join [','] (part :: rest.toList) := by
  induction t generalizing quoted part with
  | nil =>
    obtain ⟨rfl, rfl⟩ : [] = part ∧ none = rest := by simpa [breakAtComma] using h
    rfl
  | cons c cs ih =>
    by_cases hc : c = ',' ∧ quoted = false
    · obtain ⟨rfl, rfl⟩ : [] = part ∧ some cs = rest := by simpa [breakAtComma, hc] using h
      simp [join, List.intercalate, hc.1]
    · -- any other character goes to the part, and a quote toggles
      rcases hb : breakAtComma (if c = '\'' then !quoted else quoted) cs with ⟨part', rest'⟩
      obtain ⟨rfl, rfl⟩ : c :: part' = part ∧ rest' = rest := by
        simpa only [breakAtComma, hc, if_false, hb, Prod.mk.injEq] using h
      rw [ih hb]
      cases rest' <;> simp [join, List.intercalate]

/-- **The parts of a body, joined by commas, are the body.** -/
theorem splitBody_eq_join {body index : Text} {keyword style : Option Text}
    (h : splitBody body = (index, keyword, style)) :
    body = join [','] (index :: (keyword.toList ++ style.toList)) ∧
      (keyword = none → style = none) := by
  unfold splitBody at h
  split at h
  · rename_i index' hb
    obtain ⟨rfl, rfl, rfl⟩ : index' = index ∧ none = keyword ∧ none = style := by simpa using h
    exact ⟨eq_of_breakAtComma hb, fun _ => rfl⟩
  · rename_i index' rest hb
    rcases hb' : breakAtComma false rest with ⟨keyword', style'⟩
    obtain ⟨rfl, rfl, rfl⟩ : index' = index ∧ some keyword' = keyword ∧ style' = style := by
      simpa [hb'] using h
    refine ⟨?_, by simp⟩
    rw [eq_of_breakAtComma hb, eq_of_breakAtComma hb']
    simp [join, List.intercalate]

/-- **A placeholder is read from the parts of its body.** -/
theorem readPlaceholder_eq_ok_iff {body : Text} {position : Nat} {p : Placeholder} :
    readPlaceholder body position = .ok p ↔
      readIndex (splitBody body).1 position = .ok p.index ∧
        readFormat p.index (splitBody body).2.1 (splitBody body).2.2 = .ok p.format := by
  obtain ⟨index, format⟩ := p
  simp only [readPlaceholder, bind, Except.bind]
  cases hi : readIndex (splitBody body).1 position with
  | error e => simp
  | ok i =>
    simp only [Except.ok.injEq]
    constructor
    · intro h
      cases hf : readFormat i (splitBody body).2.1 (splitBody body).2.2 with
      | error e => simp [hf] at h
      | ok f =>
        obtain ⟨rfl, rfl⟩ : i = index ∧ f = format := by simpa [hf, pure, Except.pure] using h
        exact ⟨rfl, hf⟩
    · rintro ⟨rfl, hf⟩
      simp only [hf]
      rfl

/-- A placeholder cannot be read if its index cannot, or else its type and style part. -/
theorem readPlaceholder_eq_error_iff {body : Text} {position : Nat} {e : TemplateError} :
    readPlaceholder body position = .error e ↔
      readIndex (splitBody body).1 position = .error e ∨
        ∃ index, readIndex (splitBody body).1 position = .ok index ∧
          readFormat index (splitBody body).2.1 (splitBody body).2.2 = .error e := by
  simp only [readPlaceholder, bind, Except.bind]
  cases readIndex (splitBody body).1 position with
  | error e' => simp
  | ok index =>
    cases hformat : readFormat index (splitBody body).2.1 (splitBody body).2.2 with
    | error e' => simp [hformat]
    | ok format => simp [hformat, pure, Except.pure]

/-- An index is read when it is a row of digits with a value in range. -/
theorem readIndex_eq_ok_iff {t : Text} {position index : Nat} :
    readIndex t position = .ok index ↔
      isNumeral (trim t) = true ∧ value (trim t) = index ∧ index ≤ Placeholder.maxIndex := by
  simp only [readIndex]
  constructor
  · intro h
    split at h
    · simp at h
    · rename_i hnum
      split at h
      · rename_i hmax
        obtain rfl := Except.ok.inj h
        exact ⟨by simpa using hnum, rfl, hmax⟩
      · simp at h
  · rintro ⟨hnum, rfl, hmax⟩
    simp [hnum, hmax]

/-- **What the type and the style part say**: a blank type part drops the style, a blank style counts
as absent. -/
theorem readFormat_eq_ok_iff {index : Nat} {keyword style : Option Text} {format : Option Format} :
    readFormat index keyword style = .ok format ↔
      lower (trim (keyword.getD [])) = [] ∧ format = none ∨
        lower (trim (keyword.getD [])) ≠ [] ∧
          ∃ kind, FormatKind.ofKeyword? (lower (trim (keyword.getD []))) = some kind ∧
            format = some ⟨kind, style.filter fun s => !blank s⟩ := by
  simp only [readFormat]
  by_cases hempty : lower (trim (keyword.getD [])) = []
  · simp [hempty, eq_comm]
  · rw [if_neg hempty]
    cases FormatKind.ofKeyword? (lower (trim (keyword.getD []))) with
    | none => simp [hempty]
    | some kind => simp [hempty, eq_comm]

end Template

end MessageCatalog
