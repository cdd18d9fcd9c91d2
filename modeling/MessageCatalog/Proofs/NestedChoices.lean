import MessageCatalog.Proofs.ChoiceOrder
import MessageCatalog.Proofs.TemplateRoundTrip

/-!
# Choices within templates

The alternatives of a choice are templates, which may hold choices again. Three scanners cut such a
text: one finds the end of a placeholder, one divides its style at the bars, and one reads the parts
as templates. Each follows quotes and braces by rules of its own, yet all of them agree on a text
whose quotes and braces close. A style that was read is such a text, and it is cut into such texts.

## Main statements

* `closes_of_parse` : the styles of a template close
* `closes_of_mem_splitBars` : bars divide a text that closes into texts that close
* `plain_of_readLimit?` : a limit holds no quotes and no braces
* `ofPart_of_closes` : reading a text that closes fails on the part of a placeholder only
* `ofPart_of_holdsChoice` : so do the alternatives of every choice in a template, at any depth
-/

namespace MessageCatalog

open Text

/-- **The errors of a single placeholder**: its index or its type cannot be read. -/
inductive TemplateError.OfPart : TemplateError → Prop
  | index (index : Text) (position : Nat) : OfPart (.invalidIndex index position)
  | range (index : Nat) : OfPart (.indexOutOfRange index)
  | type (keyword : Text) (index : Nat) : OfPart (.unknownFormatType keyword index)

namespace Template

open Segment

/-! ## Section 1: Steps of a text that closes -/

section

variable {quoted : Bool} {depth : Nat} {c : Char}

theorem styleCloses_quote (t : Text) :
    styleCloses quoted depth ('\'' :: t) = styleCloses (!quoted) depth t := by
  cases quoted <;> simp [styleCloses]

/-- In quoted text only a quote counts. -/
theorem styleCloses_quoted (hc : c ≠ '\'') (t : Text) :
    styleCloses true depth (c :: t) = styleCloses true depth t := by
  rw [styleCloses, bne_iff_ne.mpr hc]

theorem styleCloses_open (t : Text) :
    styleCloses false depth ('\x7b' :: t) = styleCloses false (depth + 1) t := by
  simp [styleCloses]

theorem styleCloses_close (t : Text) :
    styleCloses false depth ('\x7d' :: t) = (depth != 0 && styleCloses false (depth - 1) t) := by
  simp [styleCloses]

theorem styleCloses_other (hquote : c ≠ '\'') (hopen : c ≠ '\x7b') (hclose : c ≠ '\x7d')
    (t : Text) : styleCloses false depth (c :: t) = styleCloses false depth t := by
  simp [styleCloses, hquote, hopen, hclose]

end

/-! ## Section 2: Reading a text that closes -/

theorem ofPart_of_readIndex {t : Text} {position : Nat} {e : TemplateError}
    (h : readIndex t position = .error e) : e.OfPart := by
  unfold readIndex at h
  dsimp only at h
  split at h
  · cases h
    exact .index _ _
  · split at h
    · cases h
    · cases h
      exact .range _

theorem ofPart_of_readFormat {index : Nat} {keyword style : Option Text} {e : TemplateError}
    (h : readFormat index keyword style = .error e) : e.OfPart := by
  unfold readFormat at h
  dsimp only at h
  split at h
  · cases h
  · split at h
    · cases h
      exact .type _ _
    · cases h

theorem ofPart_of_readPlaceholder {body : Text} {position : Nat} {e : TemplateError}
    (h : readPlaceholder body position = .error e) : e.OfPart := by
  rcases readPlaceholder_eq_error_iff.mp h with hindex | ⟨index, -, hformat⟩
  · exact ofPart_of_readIndex hindex
  · exact ofPart_of_readFormat hformat

/-- A step of the scanner of placeholders, unless it is the last one: the brace of the placeholder
counts as one more than the inner braces. -/
theorem styleCloses_depthAfter {depth : Nat} {c : Char} {t : Text} (pos : Nat)
    (h : styleCloses false (depth + 1) (c :: t) = true) (hend : ¬ (c = '\x7d' ∧ depth = 0)) :
    styleCloses (if c = '\'' then some pos else none).isSome (depthAfter c depth + 1) t = true := by
  unfold depthAfter
  by_cases hquote : c = '\''
  · subst hquote
    rwa [styleCloses_quote] at h
  rw [if_neg hquote, Option.isSome_none]
  by_cases hopen : c = '\x7b'
  · subst hopen
    rwa [styleCloses_open] at h
  rw [if_neg hopen]
  by_cases hclose : c = '\x7d'
  · subst hclose
    have hdepth : depth - 1 + 1 = depth := by
      have : depth ≠ 0 := fun h0 => hend ⟨rfl, h0⟩
      omega
    rw [styleCloses_close] at h
    rw [if_pos rfl, hdepth]
    exact (Bool.and_eq_true_iff.mp h).2
  · rw [styleCloses_other hquote hopen hclose] at h
    rwa [if_neg hclose]

/-- Behind an opening brace a text that closes has a closing one, and what follows closes too. -/
theorem exists_takeBody (start : Nat) (quote : Option Nat) {depth : Nat} (pos : Nat) {t : Text}
    (h : styleCloses quote.isSome (depth + 1) t = true) :
    ∃ body rest, takeBody start quote depth pos t = .ok (body, rest) ∧
      styleCloses false 0 rest = true := by
  induction t generalizing quote depth pos with
  | nil => simp [styleCloses] at h
  | cons c cs ih =>
    cases quote with
    | some q =>
      have hcs : styleCloses (if c = '\'' then none else some q).isSome (depth + 1) cs = true := by
        by_cases hquote : c = '\''
        · subst hquote
          rwa [Option.isSome_some, styleCloses_quote] at h
        · rw [Option.isSome_some, styleCloses_quoted hquote] at h
          rwa [if_neg hquote]
      obtain ⟨body, rest, hbody, hrest⟩ := ih _ (pos + 1) hcs
      exact ⟨c :: body, rest, by rw [takeBody, hbody]; rfl, hrest⟩
    | none =>
      rw [Option.isSome_none] at h
      by_cases hend : c = '\x7d' ∧ depth = 0
      · obtain ⟨rfl, rfl⟩ := hend
        rw [styleCloses_close] at h
        exact ⟨[], cs, by rw [takeBody, if_pos ⟨rfl, rfl⟩], h⟩
      obtain ⟨body, rest, hbody, hrest⟩ := ih _ (pos + 1) (styleCloses_depthAfter pos h hend)
      exact ⟨c :: body, rest, by rw [takeBody, if_neg hend, hbody]; rfl, hrest⟩

/-- Where a text closes from a state of the outer scanner, reading goes on to its end, unless a part
of a placeholder cannot be read. -/
theorem ofPart_of_segmentsFrom {quote : Option Nat} {pos : Nat} {t : Text} {e : TemplateError}
    (hcloses : styleCloses quote.isSome 0 t = true) (h : segmentsFrom quote pos t = .error e) :
    e.OfPart := by
  fun_induction segmentsFrom quote pos t with
  | case1 q => cases hcloses
  | case2 => cases h
  | case3 quote pos rest ih =>
    -- a doubled quote opens and closes
    rw [styleCloses_quote, styleCloses_quote, Bool.not_not] at hcloses
    exact ih hcloses (map_eq_error_iff.mp h)
  | case4 quote pos cs hcs ih =>
    rw [styleCloses_quote] at hcloses
    refine ih ?_ h
    cases quote <;> exact hcloses
  | case5 quote pos c cs hpair hquote hopen e' hbody =>
    obtain ⟨rfl, rfl⟩ := hopen
    rw [Option.isSome_none, styleCloses_open] at hcloses
    obtain ⟨body, rest, htake, -⟩ := exists_takeBody pos none (pos + 1) hcloses
    rw [htake] at hbody
    cases hbody
  | case6 quote pos c cs hpair hquote hopen body rest hbody e' hp =>
    cases h
    exact ofPart_of_readPlaceholder hp
  | case7 quote pos c cs hpair hquote hopen body rest hbody p hp _ ih =>
    obtain ⟨rfl, rfl⟩ := hopen
    rw [Option.isSome_none, styleCloses_open] at hcloses
    obtain ⟨body', rest', htake, hrest⟩ := exists_takeBody pos none (pos + 1) hcloses
    obtain ⟨-, rfl⟩ : body' = body ∧ rest' = rest := by simpa [htake] using hbody
    exact ih hrest (map_eq_error_iff.mp h)
  | case8 quote pos c cs hpair hquote hopen ih =>
    refine ih ?_ (map_eq_error_iff.mp h)
    cases quote with
    | some q => rwa [Option.isSome_some, styleCloses_quoted hquote] at hcloses
    | none =>
      rw [Option.isSome_none] at hcloses
      have hopen : c ≠ '\x7b' := fun hc => hopen ⟨hc, rfl⟩
      have hclose : c ≠ '\x7d' := by
        rintro rfl
        rw [styleCloses_close] at hcloses
        cases hcloses
      rwa [styleCloses_other hquote hopen hclose] at hcloses

/-- **Reading a text that closes fails on a part of a placeholder only.** -/
theorem ofPart_of_closes {t : Text} {e : TemplateError} (hcloses : styleCloses false 0 t = true)
    (h : parse t = .error e) : e.OfPart := by
  have hquote : styleCloses (none : Option Nat).isSome 0 t = true := hcloses
  exact ofPart_of_segmentsFrom hquote (map_eq_error_iff.mp h)

/-! ## Section 3: The styles of a template -/

theorem normalPlaceholder_of_mem {segments : List Segment} (h : normal segments = true)
    {p : Placeholder} (hp : p ∈ Segment.placeholders segments) : normalPlaceholder p = true := by
  induction segments with
  | nil => cases hp
  | cons segment rest ih =>
    cases segment with
    | literal t =>
      rw [normal_literal_cons, Bool.and_eq_true] at h
      exact ih h.2 hp
    | placeholder q =>
      rw [normal_placeholder_cons, Bool.and_eq_true] at h
      rcases List.mem_cons.mp hp with rfl | hrest
      · exact h.1
      · exact ih h.2 hrest

/-- **The styles of a template close.** -/
theorem closes_of_parse {source style : Text} {t : Template} {p : Placeholder}
    (h : parse source = .ok t) (hp : p ∈ t.placeholders) (hstyle : p.style = some style) :
    styleCloses false 0 style = true := by
  have hnormal := normalPlaceholder_of_mem (normal_of_parse h) hp
  simp only [normalPlaceholder, hstyle, Bool.and_eq_true] at hnormal
  exact hnormal.2.2

end Template

namespace Choice

open Template Segment

/-! ## Section 4: Limits hold no quotes and no braces -/

/-- A character is plain if the others lack a property that it has. -/
theorem isPlain_of {P : Char → Prop} {c : Char} (h : P c) (hquote : ¬ P '\'') (hopen : ¬ P '\x7b')
    (hclose : ¬ P '\x7d') : isPlain c = true := by
  simp only [isPlain, Bool.and_eq_true, bne_iff_ne, ne_eq]
  exact ⟨⟨fun he => hquote (he ▸ h), fun he => hopen (he ▸ h)⟩, fun he => hclose (he ▸ h)⟩

theorem plain_of_isNumeral {t : Text} (h : isNumeral t = true) : t.all isPlain = true := by
  simp only [isNumeral, Bool.and_eq_true, List.all_eq_true] at h
  exact List.all_eq_true.mpr fun c hc =>
    isPlain_of (P := (Char.isDigit · = true)) (h.2 c hc) (by decide) (by decide) (by decide)

theorem plain_of_trim {t : Text} (h : (trim t).all isPlain = true) : t.all isPlain = true := by
  apply List.all_eq_true.mpr
  intro c hc
  rcases isBlank_or_mem_trim hc with hblank | hmem
  · exact isPlain_of (P := (isBlank · = true)) hblank (by decide) (by decide) (by decide)
  · exact List.all_eq_true.mp h c hmem

theorem plain_of_lower {t : Text} (h : (lower t).all isPlain = true) : t.all isPlain = true := by
  simp only [lower, List.all_map, List.all_eq_true, Function.comp_apply] at h
  exact List.all_eq_true.mpr fun c hc =>
    isPlain_of (P := (isPlain ·.toLower = true)) (h c hc) (by decide) (by decide) (by decide)

theorem plain_of_takeDigits {t : Text} (h : (takeDigits t).2.all isPlain = true) :
    t.all isPlain = true := by
  rw [takeDigits, List.span_eq_takeWhile_dropWhile] at h
  rw [← List.takeWhile_append_dropWhile (p := Char.isDigit) (l := t), List.all_append, h,
    Bool.and_true]
  exact List.all_eq_true.mpr fun c hc => isPlain_of (P := (Char.isDigit · = true))
    (List.mem_takeWhile_imp hc) (by decide) (by decide) (by decide)

theorem plain_of_takeSign {t : Text} (h : (takeSign t).2.all isPlain = true) :
    t.all isPlain = true := by
  unfold takeSign at h
  split at h <;> exact h

theorem plain_of_readExponent? {t : Text} {e : Int} (h : readExponent? t = some e) :
    t.all isPlain = true := by
  cases t with
  | nil => rfl
  | cons c rest =>
    simp only [readExponent?] at h
    split at h
    swap
    · cases h
    rename_i hc
    split at h
    swap
    · cases h
    rename_i hdigits
    rw [List.all_cons, plain_of_takeSign (plain_of_isNumeral hdigits), Bool.and_true]
    rcases hc with rfl | rfl <;> rfl

theorem plain_of_readDecimal? {negative : Bool} {t : Text} {d : Decimal}
    (h : readDecimal? negative t = some d) : t.all isPlain = true := by
  apply plain_of_takeDigits
  unfold readDecimal? at h
  dsimp only at h
  split at h
  · -- digits behind a point
    rename_i rest hrest
    split at h
    · cases h
    obtain ⟨e, he, -⟩ := Option.map_eq_some_iff.mp h
    rw [hrest, List.all_cons, plain_of_takeDigits (plain_of_readExponent? he)]
    rfl
  · split at h
    · cases h
    obtain ⟨e, he, -⟩ := Option.map_eq_some_iff.mp h
    exact plain_of_readExponent? he

theorem plain_of_readDouble? {t : Text} {x : Float} (h : readDouble? t = some x) :
    t.all isPlain = true := by
  apply plain_of_takeSign
  unfold readDouble? readRounded? at h
  dsimp only at h
  split at h
  · rename_i hword
    apply plain_of_lower
    rcases hword with hword | hword <;> rw [hword] <;> rfl
  · split at h
    · rename_i hword
      apply plain_of_lower
      rw [hword]
      rfl
    · obtain ⟨d, hd, -⟩ := Option.map_eq_some_iff.mp h
      exact plain_of_readDecimal? hd

/-- **A limit holds no quotes and no braces.** -/
theorem plain_of_readLimit? {t : Text} {limit : Float} (h : readLimit? t = some limit) :
    t.all isPlain = true := by
  unfold readLimit? at h
  split at h
  · rename_i ht
    rcases ht with rfl | rfl <;> rfl
  · split at h
    · rename_i ht
      subst ht
      rfl
    · exact plain_of_readDouble? (Option.filter_eq_some_iff.mp h).1

/-! ## Section 5: Bars -/

/-- A character in front of a text goes to the first part. -/
theorem closes_consFirst {c : Char} {quoted quoted' : Bool} {depth depth' : Nat} {parts : List Text}
    (hstep : ∀ t, styleCloses quoted depth (c :: t) = styleCloses quoted' depth' t)
    (h : ∃ first rest, parts = first :: rest ∧ styleCloses quoted' depth' first = true ∧
      ∀ part ∈ rest, styleCloses false 0 part = true) :
    ∃ first rest, consFirst c parts = first :: rest ∧ styleCloses quoted depth first = true ∧
      ∀ part ∈ rest, styleCloses false 0 part = true := by
  obtain ⟨first, rest, rfl, hfirst, hrest⟩ := h
  exact ⟨c :: first, rest, rfl, (hstep first).trans hfirst, hrest⟩

/-- Where a text closes from a state of the scanners, its first part closes from there, and every
other part closes on its own. -/
theorem closes_splitBars {quoted : Bool} {depth : Nat} {t : Text}
    (h : styleCloses quoted depth t = true) :
    ∃ first rest, splitBars quoted depth t = first :: rest ∧
      styleCloses quoted depth first = true ∧ ∀ part ∈ rest, styleCloses false 0 part = true := by
  induction t generalizing quoted depth with
  | nil => exact ⟨[], [], rfl, h, by simp⟩
  | cons c cs ih =>
    unfold splitBars
    by_cases hquote : c = '\''
    · subst hquote
      rw [if_pos rfl]
      rw [styleCloses_quote] at h
      exact closes_consFirst styleCloses_quote (ih h)
    rw [if_neg hquote]
    cases quoted with
    | true =>
      rw [if_pos rfl]
      rw [styleCloses_quoted hquote] at h
      exact closes_consFirst (styleCloses_quoted hquote) (ih h)
    | false =>
      rw [if_neg Bool.false_ne_true]
      by_cases hopen : c = '\x7b'
      · subst hopen
        rw [if_pos rfl]
        rw [styleCloses_open] at h
        exact closes_consFirst styleCloses_open (ih h)
      rw [if_neg hopen]
      by_cases hclose : c = '\x7d'
      · -- a brace that closes nothing does not stand in a text that closes
        subst hclose
        rw [if_pos rfl]
        rw [styleCloses_close, Bool.and_eq_true] at h
        exact closes_consFirst (fun t => by rw [styleCloses_close, h.1, Bool.true_and]) (ih h.2)
      rw [if_neg hclose]
      rw [styleCloses_other hquote hopen hclose] at h
      by_cases hbar : c = '|' ∧ depth = 0
      · -- the first part ends here, outside quotes and braces
        obtain ⟨rfl, rfl⟩ := hbar
        rw [if_pos ⟨rfl, rfl⟩]
        obtain ⟨first, rest, hparts, hfirst, hrest⟩ := ih h
        refine ⟨[], first :: rest, by rw [hparts], rfl, ?_⟩
        exact List.forall_mem_cons.mpr ⟨hfirst, hrest⟩
      · rw [if_neg hbar]
        exact closes_consFirst (styleCloses_other hquote hopen hclose) (ih h)

/-- **Bars divide a text that closes into texts that close.** -/
theorem closes_of_mem_splitBars {t part : Text} (h : styleCloses false 0 t = true)
    (hpart : part ∈ splitBars false 0 t) : styleCloses false 0 part = true := by
  obtain ⟨first, rest, hparts, hfirst, hrest⟩ := closes_splitBars h
  rw [hparts] at hpart
  rcases List.mem_cons.mp hpart with rfl | hlater
  · exact hfirst
  · exact hrest part hlater

/-- The text of an alternative closes if its part does: what stands before it is plain. -/
theorem closes_of_spells {part : Text} {a : Alternative} (h : Spells part a)
    (hpart : styleCloses false 0 part = true) : styleCloses false 0 a.text = true := by
  obtain ⟨hlimit, -, hrelation, -⟩ := h
  rename_i limit relation
  have hplain : (limit ++ [relation]).all isPlain = true := by
    rw [List.all_append, plain_of_trim (plain_of_readLimit? hlimit)]
    simp only [List.mem_cons, List.not_mem_nil, or_false] at hrelation
    rcases hrelation with rfl | rfl | rfl <;> rfl
  rwa [List.append_cons, styleCloses_append_of_plain hplain] at hpart

/-- The text of every alternative of a pattern that closes does so. -/
theorem closes_of_parse? {pattern : Text} {choice : Choice} (h : parse? pattern = some choice)
    (hpattern : styleCloses false 0 pattern = true) {a : Alternative}
    (ha : a ∈ choice.alternatives) : styleCloses false 0 a.text = true := by
  obtain ⟨as, has, rfl⟩ := Option.map_eq_some_iff.mp h
  obtain ⟨part, hpart, hread⟩ := exists_part has ha
  exact closes_of_spells (spells_of_readAlternative? hread)
    (closes_of_mem_splitBars hpattern hpart)

end Choice

/-! ## Section 6: Choices at any depth -/

/-- **The choices in a template**, each with its style: those of its placeholders, and those in the
alternatives of any choice in it. -/
inductive HoldsChoice : Text → Text → Choice → Prop
  | placeholder {source style : Text} {t : Template} {p : Placeholder} {choice : Choice}
      (hparse : Template.parse source = .ok t) (hp : p ∈ t.placeholders)
      (hformat : p.format = some ⟨.choice, some style⟩)
      (hchoice : Choice.parse style = .ok choice) : HoldsChoice source style choice
  | nested {source style style' : Text} {choice choice' : Choice} {a : Alternative}
      (h : HoldsChoice source style choice) (ha : a ∈ choice.alternatives)
      (hinner : HoldsChoice a.text style' choice') : HoldsChoice source style' choice'

namespace Template

/-- **The alternatives of every choice in a template are texts that close.** They stand between the
bars of the style, which are all that is lost of it, and where one of them is no template, the index
or the type of a placeholder in it is at fault, and no quote or brace. -/
theorem ofPart_of_holdsChoice {source style : Text} {choice : Choice}
    (h : HoldsChoice source style choice) :
    join ['|'] (Choice.splitBars false 0 style) = style ∧
      List.Forall₂ Choice.Spells (Choice.splitBars false 0 style) choice.alternatives ∧
      ∀ a ∈ choice.alternatives, ∀ e, parse a.text = .error e → e.OfPart := by
  induction h with
  | placeholder hparse hp hformat hchoice =>
    have hparts := Choice.parse?_of_parse hchoice
    refine ⟨Choice.join_splitBars false 0 _, Choice.spells_of_parse? hparts, ?_⟩
    intro a ha e he
    have hstyle := closes_of_parse hparse hp (by rw [Placeholder.style, hformat]; rfl)
    exact ofPart_of_closes (Choice.closes_of_parse? hparts hstyle ha) he
  | nested _ _ _ _ ih => exact ih

/-- A choice with a quoted brace in a choice with a quoted bar; one alternative of the inner one has
an index that is none. -/
theorem ofPart_of_holdsChoice_nested :
    let source : Text :=
      "\x7b0,choice,0#it''s '|'|1#\x7b0,choice,0#'\x7b'|5<\x7bx\x7d\x7d\x7d".toList
    let style : Text := "0#'\x7b'|5<\x7bx\x7d".toList
    let quoted : Alternative := ⟨0, false, "'\x7b'".toList⟩
    let faulty : Alternative := ⟨5, true, "\x7bx\x7d".toList⟩
    HoldsChoice source style ⟨[quoted, faulty]⟩ ∧
      join ['|'] (Choice.splitBars false 0 style) = style ∧
      List.Forall₂ Choice.Spells (Choice.splitBars false 0 style) [quoted, faulty] ∧
      parse faulty.text = .error (.invalidIndex ['x'] 0) ∧
      (TemplateError.invalidIndex ['x'] 0).OfPart := by
  intro source style quoted faulty
  let outer : Text := "0#it''s '|'|1#\x7b0,choice,0#'\x7b'|5<\x7bx\x7d\x7d".toList
  let inner : Text := "\x7b0,choice,0#'\x7b'|5<\x7bx\x7d\x7d".toList
  have houter : HoldsChoice source outer ⟨[⟨0, false, "it''s '|'".toList⟩, ⟨1, false, inner⟩]⟩ := by
    have hparse : parse source = .ok ⟨source, [.placeholder ⟨0, some ⟨.choice, some outer⟩⟩]⟩ := by
      decide +kernel
    exact .placeholder hparse (List.mem_singleton_self _) rfl (by decide +kernel)
  have hinner : HoldsChoice inner style ⟨[quoted, faulty]⟩ := by
    have hparse : parse inner = .ok ⟨inner, [.placeholder ⟨0, some ⟨.choice, some style⟩⟩]⟩ := by
      decide +kernel
    exact .placeholder hparse (List.mem_singleton_self _) rfl (by decide +kernel)
  have h : HoldsChoice source style ⟨[quoted, faulty]⟩ :=
    .nested houter (List.mem_cons_of_mem _ (List.mem_singleton_self _)) hinner
  have hfaulty : parse faulty.text = .error (.invalidIndex ['x'] 0) := by decide +kernel
  obtain ⟨hjoin, hspells, herror⟩ := ofPart_of_holdsChoice h
  exact ⟨h, hjoin, hspells, hfaulty, herror faulty (by simp) _ hfaulty⟩

end Template

end MessageCatalog
