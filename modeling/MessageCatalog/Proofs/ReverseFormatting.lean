import MessageCatalog.Proofs.StoredArguments

/-!
# Reading formatted messages back

A template with text between its placeholders divides a formatted message. Untyped placeholders
always give a message back as a whole, even where they divide it in another way than it was written;
where no delimiter occurs too early, every placeholder is read from what was written for it.

## Main statements

* `read_iff_exists_format` : a text is read exactly when it can be formatted, and what is read from
  it is formatted as the same text
* `read_format` : with delimited pieces a message is read from what was written for its placeholders
-/

namespace MessageCatalog.Message

open Text Segment

variable {template text : Text} {t : Template}

/-! ## Section 1: Untyped placeholders -/

/-- A text that can be cut is read as arguments that hold its pieces and nothing else. -/
theorem exists_read_of_cut? (setting : Setting) {pieces : List Text}
    (hparse : Template.parse template = .ok t)
    (huntyped : ∀ p ∈ t.placeholders, p.format = none)
    (hdistinct : (t.placeholders.map Placeholder.index).Nodup)
    (hcut : cut? t.segments text = some pieces) :
    ∃ result, read setting template text = .ok result ∧ Holds result t.placeholders pieces ∧
      result.length = arity t.placeholders ∧
      ∀ i, i ∉ t.placeholders.map Placeholder.index → Argument.at? result i = .missing := by
  rw [read_of_cut? hparse hcut]
  have hempty : ∀ i, Argument.at? [] i = .missing := by
    intro i
    exact Argument.at?_of_length_le (Nat.zero_le i)
  obtain ⟨result, hfold, hholds, hlength, hother⟩ :=
    exists_foldlM_readPiece setting text huntyped hdistinct (length_of_cut? hcut)
      fun p _ => hempty p.index
  refine ⟨result, hfold, hholds, ?_, ?_⟩
  · rw [hlength]
    exact Nat.max_eq_right (Nat.zero_le _)
  · intro i hi
    rw [hother i hi, hempty]

/-- Arguments that hold the pieces of a text are formatted as that text. -/
theorem format_of_holds {tag : LocaleTag} {args : List Argument} {pieces : List Text}
    (hparse : Template.parse template = .ok t)
    (huntyped : ∀ p ∈ t.placeholders, p.format = none)
    (hcut : cut? t.segments text = some pieces) (hholds : Holds args t.placeholders pieces) :
    format tag args template = .ok text := by
  rw [format_eq_fill hparse, mapM_written_of_holds huntyped hholds, ← fill_of_cut? hcut]
  rfl

/-- The text of an argument; every other kind counts as no text. -/
def textOf : Argument → Text
  | .text t => t
  | _ => []

/-- Only texts matter for the pieces that arguments hold. -/
theorem holds_map_textOf {args : List Argument} {ps : List Placeholder} {pieces : List Text}
    (h : Holds args ps pieces) : Holds ((args.map textOf).map .text) ps pieces := by
  refine List.Forall₂.imp ?_ h
  intro p piece hpiece
  -- a text is no missing value, so its index is in range
  have hlt : p.index < args.length := by
    by_contra hge
    rw [Argument.at?_of_length_le (Nat.le_of_not_lt hge)] at hpiece
    cases hpiece
  unfold Argument.at? at hpiece ⊢
  rw [List.getD_eq_getElem _ _ hlt] at hpiece
  rw [List.getD_eq_getElem _ _ (by simpa using hlt), List.getElem_map, List.getElem_map, hpiece]
  rfl

/-- **A text is read exactly when it can be formatted.** For untyped placeholders of distinct
indices with text between them, reading succeeds exactly on the texts that some text arguments are
formatted as; and what is read is formatted as the text again. -/
theorem read_iff_exists_format {setting : Setting} (hparse : Template.parse template = .ok t)
    (huntyped : ∀ p ∈ t.placeholders, p.format = none)
    (hdistinct : (t.placeholders.map Placeholder.index).Nodup)
    (hsep : separated t.segments = true) :
    ((∃ args, read setting template text = .ok args) ↔
      ∃ texts : List Text, format setting.tag (texts.map .text) template = .ok text) ∧
    ∀ args, read setting template text = .ok args →
      format setting.tag args template = .ok text := by
  -- what is read holds the pieces of the text
  have hread : ∀ args, read setting template text = .ok args →
      ∃ pieces, cut? t.segments text = some pieces ∧ Holds args t.placeholders pieces := by
    intro args hargs
    obtain ⟨pieces, hcut⟩ := exists_cut?_of_read hparse hargs
    obtain ⟨result, hresult, hholds, _⟩ :=
      exists_read_of_cut? setting hparse huntyped hdistinct hcut
    obtain rfl : result = args := Except.ok.inj (hresult.symm.trans hargs)
    exact ⟨pieces, hcut, hholds⟩
  refine ⟨⟨?_, ?_⟩, ?_⟩
  · rintro ⟨args, hargs⟩
    obtain ⟨pieces, hcut, hholds⟩ := hread args hargs
    exact ⟨args.map textOf, format_of_holds hparse huntyped hcut (holds_map_textOf hholds)⟩
  · rintro ⟨texts, hformat⟩
    rw [format_eq_fill hparse] at hformat
    obtain ⟨pieces, _, hfill⟩ := map_eq_ok_iff.mp hformat
    -- the pieces that are found need not be those that were written
    obtain ⟨found, hfound⟩ := exists_cut?_fill (Template.normal_of_parse hparse) hsep pieces
    rw [hfill] at hfound
    obtain ⟨result, hresult, _⟩ :=
      exists_read_of_cut? setting hparse huntyped hdistinct hfound
    exact ⟨result, hresult⟩
  · intro args hargs
    obtain ⟨pieces, hcut, hholds⟩ := hread args hargs
    exact format_of_holds hparse huntyped hcut hholds

/-- The first placeholder takes nothing, since its literal already begins the text. -/
theorem read_iff_exists_format_overlap :
    let segments : List Segment :=
      [.placeholder ⟨1, none⟩, .literal "ab".toList, .placeholder ⟨0, none⟩, .literal "b".toList]
    let tag : LocaleTag := ⟨"en".toList, none, none, []⟩
    let template := printAll segments
    let text := "ababxb".toList
    Template.parse template = .ok ⟨template, segments⟩ ∧
      (∀ p ∈ placeholders segments, p.format = none) ∧
      ((placeholders segments).map Placeholder.index).Nodup ∧ separated segments = true ∧
      format tag [.text "x".toList, .text "ab".toList] template = .ok text ∧
      ∃ args, read ⟨tag, 2024⟩ template text = .ok args ∧ format tag args template = .ok text := by
  intro segments tag template text
  have hparse : Template.parse template = .ok ⟨template, segments⟩ :=
    Template.parse_printAll (by decide)
  have huntyped : ∀ p ∈ placeholders segments, p.format = none := by decide
  have hdistinct : ((placeholders segments).map Placeholder.index).Nodup := by decide
  have hsep : separated segments = true := by decide
  have hformat : format tag ([("x".toList : Text), "ab".toList].map .text) template = .ok text := by
    rw [format_eq_fill hparse]
    rfl
  have hiff := @read_iff_exists_format template text _ ⟨tag, 2024⟩ hparse huntyped hdistinct hsep
  obtain ⟨args, hread⟩ := hiff.1.mpr ⟨_, hformat⟩
  exact ⟨hparse, huntyped, hdistinct, hsep, hformat, args, hread, hiff.2 args hread⟩

/-! ## Section 2: Delimited pieces -/

/-- **A message is read from what was written for its placeholders** when every literal between two
placeholders occurs no earlier than where it was written. Untyped placeholders of distinct indices
with text arguments then give these arguments back. -/
theorem read_format {setting : Setting} {args : List Argument} (hparse : Template.parse template = .ok t)
    (hsep : separated t.segments = true) (hformat : format setting.tag args template = .ok text)
    (hdelimited : ∀ pieces, t.placeholders.mapM (written setting.tag args) = .ok pieces →
      delimited t.segments pieces = true) :
    (∃ pieces, t.placeholders.mapM (written setting.tag args) = .ok pieces ∧
      cut? t.segments text = some pieces ∧
      read setting template text =
        (t.placeholders.zip pieces).foldlM (readPiece setting text) []) ∧
    ((∀ p ∈ t.placeholders, p.format = none) →
      (t.placeholders.map Placeholder.index).Nodup →
      (∀ p ∈ t.placeholders, ∃ s, Argument.at? args p.index = .text s) →
      read setting template text = .ok (mentioned args t.placeholders)) := by
  rw [format_eq_fill hparse] at hformat
  obtain ⟨pieces, hpieces, hfill⟩ := map_eq_ok_iff.mp hformat
  -- one piece for each placeholder, so the cut finds the pieces that were written
  have hcut : cut? t.segments text = some pieces := by
    rw [← hfill]
    exact cut?_fill (Template.normal_of_parse hparse) hsep (mapM_eq_ok_iff.mp hpieces).length_eq.symm
      (hdelimited pieces hpieces)
  refine ⟨⟨pieces, hpieces, hcut, read_of_cut? hparse hcut⟩, ?_⟩
  intro huntyped hdistinct htexts
  obtain ⟨result, hresult, hholds, hlength, hother⟩ :=
    exists_read_of_cut? setting hparse huntyped hdistinct hcut
  have hargs : Holds args t.placeholders pieces := holds_of_mapM_written huntyped htexts hpieces
  rw [hresult, eq_mentioned hlength (at?_eq_of_holds hholds hargs) hother]

/-- A piece that begins like the literal behind it, a closing literal that occurs before the end, and
an argument that no placeholder mentions. -/
theorem read_format_closing :
    let segments : List Segment :=
      [.literal "a".toList, .placeholder ⟨2, none⟩, .literal "aa".toList, .placeholder ⟨0, none⟩,
        .literal "a".toList]
    let tag : LocaleTag := ⟨"en".toList, none, none, []⟩
    let args : List Argument := [.text "aa".toList, .text "unused".toList, .text "ab".toList]
    let template := printAll segments
    let text := "aabaaaaa".toList
    Template.parse template = .ok ⟨template, segments⟩ ∧ separated segments = true ∧
      format tag args template = .ok text ∧
      (∀ pieces, (placeholders segments).mapM (written tag args) = .ok pieces →
        delimited segments pieces = true) ∧
      read ⟨tag, 2024⟩ template text =
        .ok [.text "aa".toList, .missing, .text "ab".toList] := by
  intro segments tag args template text
  have hparse : Template.parse template = .ok ⟨template, segments⟩ :=
    Template.parse_printAll (by decide)
  have hsep : separated segments = true := by decide
  have hwritten : (placeholders segments).mapM (written tag args) =
      .ok ["ab".toList, "aa".toList] := rfl
  have hformat : format tag args template = .ok text := by
    rw [format_eq_fill hparse]
    rfl
  have hdelimited : ∀ pieces, (placeholders segments).mapM (written tag args) = .ok pieces →
      delimited segments pieces = true := by
    intro pieces hpieces
    obtain rfl : ["ab".toList, "aa".toList] = pieces := Except.ok.inj (hwritten.symm.trans hpieces)
    decide
  have hread := @read_format template text _ ⟨tag, 2024⟩ args hparse hsep hformat hdelimited
  have htexts : ∀ p ∈ placeholders segments, ∃ s, Argument.at? args p.index = .text s := by
    intro p hp
    simp only [segments, placeholders_literal, placeholders_placeholder, placeholders_nil,
      List.mem_cons, List.not_mem_nil, or_false] at hp
    rcases hp with rfl | rfl
    · exact ⟨_, rfl⟩
    · exact ⟨_, rfl⟩
  exact ⟨hparse, hsep, hformat, hdelimited, hread.2 (by decide) (by decide) htexts⟩

end MessageCatalog.Message
