import MessageCatalog.Proofs.IntegerTexts

/-!
# Quoted affixes

A quoted span of a decimal pattern is an affix whose characters have no meaning for the scan: no
digit place, no factor. Two steps look at the pattern without regard to quotes. The first semicolon
ends it, so that a quoted span with a semicolon stays open; and the generic currency sign of an affix
is replaced when a number is written.

## Main statements

* `run_quoted` : the scan takes a quoted span as it is
* `parse?_quoted` : the pattern of a quoted span and one digit place
* `replaceChar_eq_self_iff` : when a replacement changes nothing
* `format_quoted` : which quoted spans are accepted, and what is written for them
* `quoted_semicolon_and_currency` : two quoted spans that are not written as they are
-/

namespace MessageCatalog

open Text

/-! ## Section 1: The scan of a quoted span -/

namespace DecimalPattern

variable {s : Text}

namespace Scan

theorem run_quote {inQuote : Bool} {scan : Scan} {rest : Text} (h : rest.head? ≠ some '\'') :
    run inQuote scan ('\'' :: rest) = run (!inQuote) { scan with inPlaces := false } rest := by
  cases rest with
  | nil => simp [run]
  | cons c rest =>
    have hc : c ≠ '\'' := fun heq => h (congrArg some heq)
    rw [run.eq_def]
    simp [hc]

/-- **The scan takes a quoted span as it is**, into the first affix while there is no digit place. -/
theorem run_quoted {scan : Scan} (hplaces : scan.places = []) (h : '\'' ∉ s) (rest : Text) :
    run true scan (s ++ rest) = run true { scan with before := scan.before ++ s } rest := by
  induction s generalizing scan with
  | nil => simp
  | cons c cs ih =>
    obtain ⟨hc, hcs⟩ := not_or.mp fun hm => h (List.mem_cons.mpr hm)
    have hstep : run true scan (c :: (cs ++ rest)) = run true (scan.affix c) (cs ++ rest) := by
      rw [run.eq_def]
      simp [Ne.symm hc]
    have haffix : scan.affix c = { scan with before := scan.before ++ [c] } := if_pos hplaces
    have hrest := @ih { scan with before := scan.before ++ [c] } hplaces hcs
    rw [List.cons_append, hstep, haffix, hrest, List.append_assoc, List.singleton_append]

end Scan

/-- The pattern of a quoted span and one digit place. -/
def quoted (s : Text) : Text := '\'' :: (s ++ "'0".toList)

theorem head?_ne_quote (h : '\'' ∉ s) : s.head? ≠ some '\'' := fun hhead =>
  h (List.mem_of_head? hhead)

/-- **A quoted span without a semicolon is the first affix of its pattern**, and one digit is
written after it. -/
theorem parse?_quoted (hne : s ≠ []) (hquote : '\'' ∉ s) (hsemicolon : ';' ∉ s) :
    parse? (quoted s) = some ⟨s, [], ⟨1, 0, 0, none⟩, 1⟩ := by
  have hwhole : (quoted s).takeWhile (· != ';') = quoted s := by
    rw [List.takeWhile_eq_self_iff]
    intro c hc
    have hmem : c = '\'' ∨ c ∈ s ∨ c = '\'' ∨ c = '0' := by simpa [quoted] using hc
    rw [bne_iff_ne]
    rintro rfl
    obtain hc | hc | hc | hc := hmem
    · cases hc
    · exact hsemicolon hc
    · cases hc
    · cases hc
  have hopen : (s ++ "'0".toList).head? ≠ some '\'' := by
    have hhead := head?_ne_quote hquote
    obtain ⟨c, cs, rfl⟩ := List.exists_cons_of_ne_nil hne
    exact hhead
  have hclose : "'0".toList = ['\'', '0'] := rfl
  have hscan : Scan.run false Scan.start (quoted s) =
      some ⟨s, [], ['0'], 1, true⟩ := by
    rw [quoted, Scan.run_quote hopen, Bool.not_false, Scan.run_quoted rfl hquote, hclose,
      Scan.run_quote (by decide)]
    rfl
  rw [parse?, hwhole, hscan]
  rfl

/-- A quoted span with a semicolon stays open: the semicolon ends the pattern. -/
theorem parse?_quoted_semicolon (hquote : '\'' ∉ s) (hsemicolon : ';' ∈ s) :
    parse? (quoted s) = none := by
  obtain ⟨first, rest, rfl, hfirst⟩ := List.eq_append_cons_of_mem hsemicolon
  have hquote' : '\'' ∉ first := fun hmem => hquote (List.mem_append_left _ hmem)
  have hcut : (quoted (first ++ ';' :: rest)).takeWhile (· != ';') = '\'' :: first := by
    have hkept : ∀ c ∈ first, (c != ';') = true := by
      intro c hc
      rw [bne_iff_ne]
      rintro rfl
      exact hfirst hc
    rw [quoted, List.append_assoc, List.takeWhile_cons_of_pos (by decide),
      List.takeWhile_append_of_pos hkept, List.cons_append,
      List.takeWhile_cons_of_neg (by decide), List.append_nil]
  have hscan : Scan.run false Scan.start ('\'' :: first) = none := by
    rw [Scan.run_quote (head?_ne_quote hquote'), Bool.not_false, ← List.append_nil first,
      Scan.run_quoted rfl hquote']
    rfl
  rw [parse?, hcut, hscan]
  rfl

end DecimalPattern

/-! ## Section 2: The style of a quoted span -/

namespace NumberStyle

open DecimalPattern

/-- A quoted span with a digit place after it names no style. -/
theorem parse_quoted (s : Text) :
    parse (some (quoted s)) =
      match parse? (quoted s) with
      | some p => .ok (.pattern p)
      | none => .error (.numberPattern (quoted s)) := by
  have hlast : (quoted s).getLast? = some '0' := by
    have hconcat : quoted s = ('\'' :: s ++ ['\'']) ++ ['0'] := by simp [quoted]
    rw [hconcat, List.getLast?_concat]
  have htrim : trim (quoted s) = quoted s := by
    apply trim_of_ends
    · rintro c ⟨⟩
      decide
    · rw [hlast]
      rintro c ⟨⟩
      decide
  have hword : ∀ word : Text, word.head? ≠ some '\'' → lower (trim (quoted s)) ≠ word := by
    rintro word hhead rfl
    rw [htrim] at hhead
    exact hhead rfl
  have hnamed : ∀ {word : Text} {style other : Except FormatError NumberStyle},
      word.head? ≠ some '\'' → (if lower (trim (quoted s)) = word then style else other) = other :=
    fun hhead => if_neg (hword _ hhead)
  unfold parse
  exact (hnamed (by decide)).trans <| (hnamed (by decide)).trans <| (hnamed (by decide)).trans <|
    hnamed (by decide)

end NumberStyle

/-! ## Section 3: What is written -/

namespace Text

theorem replaceChar_self (c : Char) (t : Text) : replaceChar c [c] t = t := by
  have hkept : (fun d => if d = c then [c] else [d]) = fun d => [d] := by
    funext d
    split
    · rename_i hd
      rw [hd]
    · rfl
  rw [replaceChar, hkept, List.flatMap_singleton']

/-- **A replacement changes nothing when there is nothing to replace**, given that the image does not
hold the character itself. -/
theorem replaceChar_eq_self_iff {c : Char} {image t : Text} (h : c ∉ image) :
    replaceChar c image t = t ↔ c ∉ t := by
  constructor
  · -- the result does not hold the character, so the text does not
    intro heq hmem
    rw [← heq, replaceChar, List.mem_flatMap] at hmem
    obtain ⟨d, _, hd⟩ := hmem
    split at hd
    · exact h hd
    · rename_i hne
      exact hne (List.mem_singleton.mp hd).symm
  · intro hmem
    induction t with
    | nil => rfl
    | cons d t ih =>
      obtain ⟨hd, ht⟩ := not_or.mp fun hm => hmem (List.mem_cons.mpr hm)
      rw [replaceChar, List.flatMap_cons, if_neg (Ne.symm hd)]
      exact congrArg (d :: ·) (ih ht)

end Text

namespace Number

open DecimalPattern

/-- **Which quoted spans are accepted, and what is written for them.** A quoted span with a digit
place after it is accepted when it holds no semicolon. An integer is then written with its sign, the
span, in which the symbol of the locale's currency stands for every generic currency sign, and its
digits. So the span is written as it is exactly when it holds no generic currency sign or the locale
has no other currency symbol. -/
theorem format_quoted (tag : LocaleTag) (s : Text) (hne : s ≠ []) (hquote : '\'' ∉ s) :
    let symbols := Symbols.ofLocale tag
    (';' ∈ s → NumberStyle.parse (some (quoted s)) = .error (.numberPattern (quoted s))) ∧
      (';' ∉ s → ∃ style, NumberStyle.parse (some (quoted s)) = .ok style ∧
        ∀ i : Int64,
          format (int i) style symbols =
              sign (decide (i.toInt < 0)) ++ replaceChar '¤' symbols.currency.symbol s ++
                numeral i.toInt.natAbs ∧
            (format (int i) style symbols =
                sign (decide (i.toInt < 0)) ++ s ++ numeral i.toInt.natAbs ↔
              '¤' ∉ s ∨ symbols.currency.symbol = ['¤'])) := by
  intro symbols
  refine ⟨?_, ?_⟩
  · intro hsemicolon
    rw [NumberStyle.parse_quoted, parse?_quoted_semicolon hquote hsemicolon]
  · intro hsemicolon
    refine ⟨.pattern ⟨s, [], ⟨1, 0, 0, none⟩, 1⟩, ?_, ?_⟩
    · rw [NumberStyle.parse_quoted, parse?_quoted hne hquote hsemicolon]
    · intro i
      have htext : format (int i) (.pattern ⟨s, [], ⟨1, 0, 0, none⟩, 1⟩) symbols =
          sign (decide (i.toInt < 0)) ++ replaceChar '¤' symbols.currency.symbol s ++
            numeral i.toInt.natAbs := by
        have hdigits : wholeDigits ⟨1, 0, 0, none⟩ i.toInt.natAbs = numeral i.toInt.natAbs := by
          rw [← fitWhole_numeral_layout]
          exact fitWhole_numeral _
        rw [format_int_eq (.pattern _) symbols (Int.mul_one _), NumberStyle.layout, arranged, hdigits]
        exact (List.append_nil _).trans (congrArg _ (List.append_nil _))
      refine ⟨htext, ?_⟩
      rw [htext, List.append_left_inj, List.append_right_inj]
      obtain hgeneric | hother := Symbols.currency_symbol_cases tag
      · rw [show symbols.currency.symbol = ['¤'] from hgeneric]
        simp only [replaceChar_self, or_true]
      · rw [replaceChar_eq_self_iff hother]
        refine ⟨.inl, fun h => h.resolve_right fun hsymbol => hother ?_⟩
        rw [show (Symbols.ofLocale tag).currency.symbol = ['¤'] from hsymbol]
        exact List.mem_singleton_self _

/-- A quoted span with characters that mean something elsewhere. -/
theorem format_quoted_meaningful :
    let en : LocaleTag := ⟨"en".toList, none, some "US".toList, []⟩
    let s : Text := "5% of #0.0,‰ ".toList
    s ≠ [] ∧ '\'' ∉ s ∧
      ∃ style, NumberStyle.parse (some (quoted s)) = .ok style ∧
        format (int (-7)) style (Symbols.ofLocale en) = "-5% of #0.0,‰ 7".toList := by
  intro en s
  have hne : s ≠ [] := by decide
  have hquote : '\'' ∉ s := by decide
  obtain ⟨style, hstyle, htext⟩ := (format_quoted en s hne hquote).2 (by decide)
  exact ⟨hne, hquote, style, hstyle, ((htext (-7)).2.mpr (.inl (by decide))).trans (by decide +kernel)⟩

/-- A quoted semicolon ends the pattern, and a quoted currency sign is replaced. -/
theorem quoted_semicolon_and_currency :
    let en : LocaleTag := ⟨"en".toList, none, some "US".toList, []⟩
    NumberStyle.parse (some (quoted ";".toList)) = .error (.numberPattern "';'0".toList) ∧
      ∃ style, NumberStyle.parse (some (quoted "¤".toList)) = .ok style ∧
        format (int 5) style (Symbols.ofLocale en) = "$5".toList := by
  refine ⟨by decide +kernel, .pattern ⟨"¤".toList, [], ⟨1, 0, 0, none⟩, 1⟩, ?_, ?_⟩
  · decide +kernel
  · decide +kernel

end Number

end MessageCatalog
