import MessageCatalog.Proofs.TemplateScanner

/-!
# Writing and reading templates

Reading undoes writing on segments in normal form, and every template that is read has its segments
in normal form. Hence a template that is written anew from its segments is read as the same
segments.

## Main statements

* `readPlaceholder_body` : a written placeholder is read back
* `normalPlaceholder_of_readPlaceholder` : a placeholder that is read is normal
* `segmentsFrom_printAll` : so are written segments
* `normal_of_segmentsFrom` : segments that are read are normal
* `parse_printAll_normal` : both together
-/

namespace MessageCatalog

namespace Placeholder

/-- What stands between the braces of a written placeholder. -/
def body (p : Placeholder) : Text :=
  Text.join [','] (Text.numeral p.index ::
    (p.format.elim [] fun f => f.kind.keyword :: f.style.toList))

theorem print_eq (p : Placeholder) : p.print = '{' :: p.body ++ ['}'] := by
  unfold print body
  match p.format with
  | none => rfl
  | some ⟨_, none⟩ => rfl
  | some ⟨_, some _⟩ => rfl

end Placeholder

namespace Template

open Text Segment

/-! ## Section 1: Placeholders -/

private theorem numeral_plain {n : Nat} {c : Char} (h : c ∈ numeral n) :
    (c ≠ ',' ∧ c ≠ '\'') ∧ isPlain c = true := by
  have hdigit := isDigit_of_mem_numeral h
  refine ⟨⟨?_, ?_⟩, ?_⟩
  · rintro rfl
    exact absurd hdigit (by decide)
  · rintro rfl
    exact absurd hdigit (by decide)
  · simp only [isPlain, Bool.and_eq_true, bne_iff_ne, ne_eq]
    refine ⟨⟨?_, ?_⟩, ?_⟩ <;> · rintro rfl; exact absurd hdigit (by decide)

private theorem keyword_plain (kind : FormatKind) :
    ∀ c ∈ kind.keyword, (c ≠ ',' ∧ c ≠ '\'') ∧ isPlain c = true := by
  have hall : (kind.keyword.all fun c => c != ',' && c != '\'' && isPlain c) = true := by
    cases kind <;> rfl
  intro c hc
  have hchar := List.all_eq_true.mp hall c hc
  simpa only [Bool.and_eq_true, bne_iff_ne] using hchar

private theorem splitBody_body (p : Placeholder) :
    splitBody p.body =
      (numeral p.index, p.format.map fun f => f.kind.keyword, p.format.bind Format.style) := by
  have hindex : ∀ c ∈ numeral p.index, c ≠ ',' ∧ c ≠ '\'' := fun c hc => (numeral_plain hc).1
  have hkeyword : ∀ kind : FormatKind, ∀ c ∈ kind.keyword, c ≠ ',' ∧ c ≠ '\'' :=
    fun kind c hc => (keyword_plain kind c hc).1
  obtain ⟨index, format⟩ := p
  match format with
  | none =>
    simp only [Placeholder.body, Option.elim, join, List.intercalate_singleton]
    rw [splitBody, breakAtComma_of_not_mem hindex]
    rfl
  | some ⟨kind, none⟩ =>
    have hbody : Placeholder.body ⟨index, some ⟨kind, none⟩⟩ =
        numeral index ++ ',' :: kind.keyword := by
      simp [Placeholder.body, join, List.intercalate]
    rw [hbody, splitBody, breakAtComma_append hindex]
    simp only [breakAtComma_of_not_mem (hkeyword kind)]
    rfl
  | some ⟨kind, some style⟩ =>
    have hbody : Placeholder.body ⟨index, some ⟨kind, some style⟩⟩ =
        numeral index ++ ',' :: (kind.keyword ++ ',' :: style) := by
      simp [Placeholder.body, join, List.intercalate]
    rw [hbody, splitBody, breakAtComma_append hindex]
    simp only [breakAtComma_append (hkeyword kind)]
    rfl

private theorem keyword_reads (kind : FormatKind) :
    lower (trim kind.keyword) = kind.keyword ∧ kind.keyword ≠ [] ∧
      FormatKind.ofKeyword? kind.keyword = some kind := by
  cases kind <;> decide

/-- **A written placeholder is read back.** -/
theorem readPlaceholder_body {p : Placeholder} (h : normalPlaceholder p = true) (position : Nat) :
    readPlaceholder p.body position = .ok p := by
  simp only [normalPlaceholder, Bool.and_eq_true, decide_eq_true_eq] at h
  obtain ⟨hmax, hstyle⟩ := h
  rw [readPlaceholder_eq_ok_iff, splitBody_body]
  constructor
  · have htrim : trim (numeral p.index) = numeral p.index :=
      trim_of_not_blank fun c hc => isBlank_of_isDigit (isDigit_of_mem_numeral hc)
    rw [readIndex_eq_ok_iff, htrim]
    exact ⟨isNumeral_numeral _, numeral_value _, hmax⟩
  · rw [readFormat_eq_ok_iff]
    obtain ⟨index, format⟩ := p
    cases format with
    | none => exact .inl ⟨rfl, rfl⟩
    | some f =>
      obtain ⟨kind, style⟩ := f
      obtain ⟨hlower, hne, hkind⟩ := keyword_reads kind
      refine .inr ⟨by simpa [hlower] using hne, kind, by simpa [hlower] using hkind, ?_⟩
      cases style with
      | none => rfl
      | some style =>
        have hblank : blank style = false := by
          simpa [Placeholder.style] using (Bool.and_eq_true_iff.mp hstyle).1
        simp [Option.filter, hblank]

/-- The body of a written placeholder closes. -/
theorem styleCloses_body {p : Placeholder} (h : normalPlaceholder p = true) :
    styleCloses false 0 p.body = true := by
  have hindex : (numeral p.index).all isPlain = true :=
    List.all_eq_true.mpr fun c hc => (numeral_plain hc).2
  have hkeyword : ∀ kind : FormatKind, kind.keyword.all isPlain = true := fun kind =>
    List.all_eq_true.mpr fun c hc => (keyword_plain kind c hc).2
  obtain ⟨index, format⟩ := p
  -- only a style can hold quotes and braces
  match format with
  | none =>
    have := styleCloses_append_of_plain hindex 0 []
    simpa [Placeholder.body, join, styleCloses] using this
  | some ⟨kind, none⟩ =>
    have hplain : (numeral index ++ ',' :: kind.keyword).all isPlain = true := by
      rw [List.all_append, hindex, List.all_cons, hkeyword kind]
      rfl
    have := styleCloses_append_of_plain hplain 0 []
    simpa [Placeholder.body, join, List.intercalate, styleCloses] using this
  | some ⟨kind, some style⟩ =>
    have hplain : (numeral index ++ ',' :: (kind.keyword ++ [','])).all isPlain = true := by
      rw [List.all_append, hindex, List.all_cons, List.all_append, hkeyword kind]
      rfl
    have hstyle : styleCloses false 0 style = true := by
      simp only [normalPlaceholder, Placeholder.style, Option.bind_some, Bool.and_eq_true] at h
      exact h.2.2
    have := styleCloses_append_of_plain hplain 0 style
    rw [hstyle] at this
    simpa [Placeholder.body, join, List.intercalate] using this

private theorem plain_of_readIndex {t : Text} {position index : Nat}
    (h : readIndex t position = .ok index) : t.all isPlain = true := by
  have hnum := (readIndex_eq_ok_iff.mp h).1
  simp only [isNumeral, Bool.and_eq_true, List.all_eq_true] at hnum
  apply List.all_eq_true.mpr
  intro c hc
  simp only [isPlain, Bool.and_eq_true, bne_iff_ne, ne_eq]
  have hchar : isBlank c = true ∨ c.isDigit = true := (isBlank_or_mem_trim hc).imp_right (hnum.2 c)
  refine ⟨⟨?_, ?_⟩, ?_⟩ <;> · rintro rfl; revert hchar; decide

private theorem plain_of_ofKeyword? {t : Text} {kind : FormatKind}
    (h : FormatKind.ofKeyword? (lower (trim t)) = some kind) : t.all isPlain = true := by
  have hkeyword : kind.keyword = (trim (lower (trim t))).map Char.toLower := by
    have := List.find?_some h
    exact beq_iff_eq.mp this
  apply List.all_eq_true.mpr
  intro c hc
  -- a character of the part is a blank, or it stands in the keyword in small letters
  have hchar : isBlank c = true ∨ isBlank c.toLower = true ∨
      c.toLower.toLower ∈ kind.keyword := by
    refine (isBlank_or_mem_trim hc).imp_right fun hmem => ?_
    refine (isBlank_or_mem_trim (List.mem_map_of_mem hmem)).imp_right fun hmem => ?_
    rw [hkeyword]
    exact List.mem_map_of_mem hmem
  simp only [isPlain, Bool.and_eq_true, bne_iff_ne, ne_eq]
  refine ⟨⟨?_, ?_⟩, ?_⟩ <;> · rintro rfl; revert hchar; cases kind <;> decide

/-- **A placeholder that is read is normal.** -/
theorem normalPlaceholder_of_readPlaceholder {body : Text} {position : Nat} {p : Placeholder}
    (hcloses : styleCloses false 0 body = true) (h : readPlaceholder body position = .ok p) :
    normalPlaceholder p = true := by
  obtain ⟨hindex, hformat⟩ := readPlaceholder_eq_ok_iff.mp h
  rcases hsplit : splitBody body with ⟨index, keyword, style⟩
  obtain ⟨hbody, hnone⟩ := splitBody_eq_join hsplit
  rw [hsplit] at hindex hformat
  have hmax : p.index ≤ Placeholder.maxIndex := (readIndex_eq_ok_iff.mp hindex).2.2
  simp only [normalPlaceholder, Bool.and_eq_true, decide_eq_true_eq]
  refine ⟨hmax, ?_⟩
  -- only a style can break the normal form, and it is kept only when it is not blank
  rcases readFormat_eq_ok_iff.mp hformat with ⟨_, hf⟩ | ⟨_, kind, hkind, hf⟩
  · simp [Placeholder.style, hf]
  · cases hs : style.filter fun s => !blank s with
    | none => simp [Placeholder.style, hf, hs]
    | some s =>
      obtain ⟨rfl, hblank⟩ := Option.filter_eq_some_iff.mp hs
      obtain ⟨keyword, rfl⟩ : ∃ k, keyword = some k := by
        cases keyword with
        | none => simp at hnone
        | some k => exact ⟨k, rfl⟩
      -- index and type part have no quotes and no braces, so the body closes as its style does
      have hkeyword : keyword.all isPlain = true := plain_of_ofKeyword? hkind
      have hplain : (index ++ ',' :: (keyword ++ [','])).all isPlain = true := by
        rw [List.all_append, plain_of_readIndex hindex, List.all_cons, List.all_append, hkeyword]
        rfl
      have hjoin : body = (index ++ ',' :: (keyword ++ [','])) ++ s := by
        rw [hbody]
        simp [join, List.intercalate]
      rw [hjoin, styleCloses_append_of_plain hplain] at hcloses
      simp only [Placeholder.style, hf, hs, Option.bind_some, hcloses, Bool.and_true]
      exact hblank

/-! ## Section 2: Literals -/

private theorem doubleQuotes_cons (c : Char) (t : Text) :
    doubleQuotes (c :: t) = (if c = '\'' then ['\'', '\''] else [c]) ++ doubleQuotes t := rfl

/-- Text with its quotes doubled is read as it was, with an opening brace only in quoted text. -/
private theorem segmentsFrom_doubleQuotes {quote : Option Nat} {t rest : Text}
    {segments : List Segment} (hbrace : '{' ∈ t → quote ≠ none)
    (h : ∀ pos, segmentsFrom quote pos rest = .ok segments) (pos : Nat) :
    segmentsFrom quote pos (doubleQuotes t ++ rest) = .ok (t.foldr consChar segments) := by
  induction t generalizing pos with
  | nil => exact h pos
  | cons c cs ih =>
    have ih := ih fun hmem => hbrace (List.mem_cons_of_mem _ hmem)
    rw [doubleQuotes_cons]
    by_cases hc : c = '\''
    · subst hc
      rw [if_pos rfl]
      show segmentsFrom quote pos ('\'' :: '\'' :: (doubleQuotes cs ++ rest)) = _
      rw [segmentsFrom_doubled, ih]
      rfl
    · rw [if_neg hc]
      show segmentsFrom quote pos (c :: (doubleQuotes cs ++ rest)) = _
      rw [segmentsFrom_char pos _ hc fun hb => hbrace (hb ▸ List.mem_cons_self), ih]
      rfl

/-- **A written literal is read back** before anything but a quote. -/
theorem segmentsFrom_printLiteral {t rest : Text} {segments : List Segment}
    (hrest : rest.head? ≠ some '\'') (h : ∀ pos, segmentsFrom none pos rest = .ok segments)
    (pos : Nat) :
    segmentsFrom none pos (printLiteral t ++ rest) = .ok (t.foldr consChar segments) := by
  -- the part before the first brace needs no quoted text around it
  have hplain : '{' ∈ t.takeWhile (· != '{') → (none : Option Nat) ≠ none := by
    intro hmem
    have := List.mem_takeWhile_imp hmem
    simp at this
  have hsplit : t.foldr consChar segments =
      (t.takeWhile (· != '{')).foldr consChar ((t.dropWhile (· != '{')).foldr consChar segments) := by
    rw [← List.foldr_append, List.takeWhile_append_dropWhile]
  rw [hsplit, printLiteral, List.append_assoc]
  refine segmentsFrom_doubleQuotes hplain (fun pos => ?_) pos
  cases hbraced : t.dropWhile (· != '{') with
  | nil => exact h pos
  | cons c cs =>
    have hc : c = '{' := by
      have := List.head?_dropWhile_not (· != '{') t
      rw [hbraced] at this
      simpa using this
    subst hc
    rw [if_neg (by simp)]
    -- the opening quote stands before a brace, the closing one before no quote
    have hclose : ∀ pos', segmentsFrom (some pos) pos' ('\'' :: rest) = .ok segments := by
      intro pos'
      rw [segmentsFrom_quote _ _ hrest]
      exact h _
    have hopen : ((doubleQuotes ('{' :: cs)) ++ '\'' :: rest).head? ≠ some '\'' := by
      rw [doubleQuotes_cons, if_neg (by decide)]
      simp
    have htext : '\'' :: doubleQuotes ('{' :: cs) ++ ['\''] ++ rest =
        '\'' :: (doubleQuotes ('{' :: cs) ++ '\'' :: rest) := by simp
    rw [htext, segmentsFrom_quote _ _ hopen]
    exact segmentsFrom_doubleQuotes (by simp) hclose _

/-! ## Section 3: Normal segments -/

/-- Whether some segments begin with literal text. -/
def opensLiteral : List Segment → Bool
  | .literal _ :: _ => true
  | _ => false

theorem normal_literal_cons (t : Text) (rest : List Segment) :
    normal (.literal t :: rest) = (!t.isEmpty && !opensLiteral rest && normal rest) := by
  match rest with
  | [] => simp [normal, opensLiteral]
  | .literal _ :: _ => simp [normal, opensLiteral]
  | .placeholder _ :: _ => simp [normal, opensLiteral]

theorem normal_placeholder_cons (p : Placeholder) (rest : List Segment) :
    normal (.placeholder p :: rest) = (normalPlaceholder p && normal rest) := by
  rw [normal]

/-- A literal character in front keeps segments normal. -/
theorem normal_consChar {segments : List Segment} (c : Char) (h : normal segments = true) :
    normal (consChar c segments) = true := by
  match segments with
  | [] => rfl
  | .placeholder p :: rest =>
    show normal (.literal [c] :: .placeholder p :: rest) = true
    rw [normal_literal_cons, h]
    rfl
  | .literal t :: rest =>
    rw [normal_literal_cons] at h
    simp only [Bool.and_eq_true] at h
    show normal (.literal (c :: t) :: rest) = true
    rw [normal_literal_cons, h.1.2, h.2]
    rfl

/-- The characters of a literal, put in front of segments that begin with none, make that literal. -/
theorem foldr_consChar {t : Text} {segments : List Segment} (ht : t ≠ [])
    (h : opensLiteral segments = false) : t.foldr consChar segments = .literal t :: segments := by
  induction t with
  | nil => exact absurd rfl ht
  | cons c cs ih =>
    by_cases hcs : cs = []
    · subst hcs
      match segments with
      | [] => rfl
      | .placeholder _ :: _ => rfl
      | .literal _ :: _ => simp [opensLiteral] at h
    · rw [List.foldr_cons, ih hcs]
      rfl

/-- **Written segments are read back.** -/
theorem segmentsFrom_printAll {segments : List Segment} (h : normal segments = true) (pos : Nat) :
    segmentsFrom none pos (printAll segments) = .ok segments := by
  induction segments generalizing pos with
  | nil => exact segmentsFrom_nil pos
  | cons segment rest ih =>
    have hprint : printAll (segment :: rest) = segment.print ++ printAll rest := rfl
    rw [hprint]
    cases segment with
    | literal t =>
      rw [normal_literal_cons] at h
      simp only [Bool.and_eq_true, Bool.not_eq_true', List.isEmpty_eq_false_iff] at h
      obtain ⟨⟨ht, hopens⟩, hnormal⟩ := h
      -- what follows a literal is the end or a brace
      have hrest : (printAll rest).head? ≠ some '\'' := by
        match rest with
        | [] => simp [printAll]
        | .placeholder p :: _ => simp [printAll, Segment.print, Placeholder.print]
        | .literal _ :: _ => simp [opensLiteral] at hopens
      have := segmentsFrom_printLiteral hrest (ih hnormal) (t := t) pos
      rwa [foldr_consChar ht hopens] at this
    | placeholder p =>
      rw [normal_placeholder_cons, Bool.and_eq_true] at h
      obtain ⟨hp, hnormal⟩ := h
      have htext : (Segment.placeholder p).print ++ printAll rest =
          '{' :: (p.body ++ '}' :: printAll rest) := by
        simp [Segment.print, Placeholder.print_eq]
      rw [htext, segmentsFrom_placeholder (takeBody_append (styleCloses_body hp))
        (readPlaceholder_body hp pos), ih hnormal]
      rfl

/-- **Segments that are read are normal.** -/
theorem normal_of_segmentsFrom {quote : Option Nat} {pos : Nat} {t : Text}
    {segments : List Segment} (h : segmentsFrom quote pos t = .ok segments) :
    normal segments = true := by
  fun_induction segmentsFrom quote pos t generalizing segments with
  | case1 => simp at h
  | case2 =>
    obtain rfl := Except.ok.inj h
    rfl
  | case3 quote pos rest ih =>
    -- a doubled quote
    obtain ⟨r, hr, rfl⟩ := map_eq_ok_iff.mp h
    exact normal_consChar _ (ih hr)
  | case4 quote pos cs hcs ih =>
    -- a lone quote leaves no trace in the segments
    exact ih h
  | case5 => simp at h
  | case6 => simp at h
  | case7 quote pos c cs _ _ _ body rest hb p hp _ ih =>
    -- a placeholder, whose body closes since it was read
    obtain ⟨r, hr, rfl⟩ := map_eq_ok_iff.mp h
    have hcloses := (takeBody_eq_ok_iff.mp hb).2
    rw [normal_placeholder_cons, normalPlaceholder_of_readPlaceholder hcloses hp, ih hr]
    rfl
  | case8 quote pos c cs _ _ _ ih =>
    -- a literal character
    obtain ⟨r, hr, rfl⟩ := map_eq_ok_iff.mp h
    exact normal_consChar _ (ih hr)

/-! ## Section 4: The round trip -/

/-- Written segments make a template with these segments. -/
theorem parse_printAll {segments : List Segment} (h : normal segments = true) :
    parse (printAll segments) = .ok ⟨printAll segments, segments⟩ := by
  rw [parse, segmentsFrom_printAll h]
  rfl

/-- The segments of a template are normal. -/
theorem normal_of_parse {source : Text} {t : Template} (h : parse source = .ok t) :
    normal t.segments = true := by
  obtain ⟨segments, hr, rfl⟩ := map_eq_ok_iff.mp h
  exact normal_of_segmentsFrom hr

/-- **Writing and reading are inverse on normal forms.** Normal segments are read back from their
written form; the segments of every template are normal; so writing a template anew and reading it
again keeps its segments. -/
theorem parse_printAll_normal :
    (∀ segments, normal segments = true →
      parse (printAll segments) = .ok ⟨printAll segments, segments⟩) ∧
    (∀ source t, parse source = .ok t → normal t.segments = true) ∧
    ∀ source t, parse source = .ok t →
      (parse (printAll t.segments)).map Template.segments = .ok t.segments := by
  refine ⟨fun segments h => parse_printAll h, fun source t h => normal_of_parse h, ?_⟩
  intro source t h
  rw [parse_printAll (normal_of_parse h)]
  rfl

/-- A literal that ends in quotes before a quoted brace, next to a style with commas, inner braces
and a quoted brace. -/
theorem parse_printAll_normal_choice :
    let segments : List Segment :=
      [.literal "it's '' \x7b0\x7d'".toList,
        .placeholder ⟨255, some ⟨.choice, some "0#none, '\x7d'|1<\x7b0,number\x7d it''s".toList⟩⟩,
        .placeholder ⟨0, none⟩]
    normal segments = true ∧ parse (printAll segments) = .ok ⟨printAll segments, segments⟩ ∧
      (parse (printAll segments)).map Template.segments = .ok segments := by
  intro segments
  have hnormal : normal segments = true := by decide
  have hparse := parse_printAll_normal.1 segments hnormal
  exact ⟨parse_printAll_normal.2.1 _ _ hparse, hparse, parse_printAll_normal.2.2 _ _ hparse⟩

end Template

end MessageCatalog
