import MessageCatalog.Proofs.ContradictingValues
import MessageCatalog.Proofs.WellTypedMessages

/-!
# Indices that are mentioned more than once

The signature of a template lets an index stand in several placeholders, of which one may be untyped
and another one typed, or one a date and another one a time. A message is read back all the same
only if the values that are read there are the same.

## Main statements

* `readsOne_of_not_choice` : a placeholder reads one value, whatever has been stored
* `read_of_readable_pieces` : when every piece can be read alone, the message is read exactly when
  the values agree at each index
* `unreadable_date_and_time` : a date and a time of one index that cannot be read back
-/

namespace MessageCatalog.Message

open Text Segment

/-! ## Section 1: Pieces that are read alone -/

theorem exists_right_of_mem {α β : Type} {R : α → β → Prop} {xs : List α} {ys : List β} {x : α}
    (h : List.Forall₂ R xs ys) (hx : x ∈ xs) : ∃ y ∈ ys, R x y := by
  induction h with
  | nil => cases hx
  | cons hhead _ ih =>
    rcases List.mem_cons.mp hx with rfl | hrest
    · exact ⟨_, List.mem_cons_self, hhead⟩
    · obtain ⟨y, hy, hxy⟩ := ih hrest
      exact ⟨y, List.mem_cons_of_mem _ hy, hxy⟩

theorem exists_left_of_mem {α β : Type} {R : α → β → Prop} {xs : List α} {ys : List β} {y : β}
    (h : List.Forall₂ R xs ys) (hy : y ∈ ys) : ∃ x ∈ xs, R x y :=
  exists_right_of_mem (List.Forall₂.flip h) hy

/-- What the piece of a placeholder is read as in a message of its own: the index and the value. -/
def readAlone (setting : Setting) (e : Placeholder × Text) : Except FormatError (Nat × Argument) :=
  (readPiece setting e.2 [] e).map fun args => (e.1.index, Argument.at? args e.1.index)

section

variable {setting : Setting} {p : Placeholder} {piece : Text} {e : Nat × Argument}

/-- A placeholder reads one value of its type from a piece, or fails, whatever has been stored. -/
def ReadsOne (setting : Setting) (p : Placeholder) (piece : Text) : Prop :=
  (∃ value, value.readType? = some p.argType ∧
    ∀ text args, readPiece setting text args (p, piece) = store text args p.index value) ∨
  ∃ error, ∀ text args, readPiece setting text args (p, piece) = .error error

theorem readsOne_of_bind {α : Type} (read : Except FormatError α) (wrap : α → Argument)
    (hwrap : ∀ a, (wrap a).readType? = some p.argType)
    (h : ∀ text args, readPiece setting text args (p, piece) =
      read >>= fun a => store text args p.index (wrap a)) :
    ReadsOne setting p piece := by
  cases read with
  | error e => exact .inr ⟨e, h⟩
  | ok a => exact .inl ⟨wrap a, hwrap a, h⟩

/-- **A placeholder that is no choice reads one value or fails**, whatever has been stored. -/
theorem readsOne_of_not_choice (setting : Setting) (piece : Text) (hchoice : p.argType ≠ .choice) :
    ReadsOne setting p piece := by
  obtain ⟨index, format⟩ := p
  match format with
  | none => exact readsOne_of_bind (.ok piece) .text (fun _ => rfl) fun _ _ => rfl
  | some ⟨.number, style⟩ =>
    have hread : ∀ text args, readPiece setting text args (⟨index, some ⟨.number, style⟩⟩, piece) =
        (NumberStyle.parse style >>= fun numberStyle =>
          Number.parse piece numberStyle (Symbols.ofLocale setting.tag)) >>= fun n =>
            store text args index (.number n) := by
      -- a malformed style fails before the piece is looked at
      intro text args
      rw [bind_assoc]
      rfl
    exact readsOne_of_bind _ .number (fun _ => rfl) hread
  | some ⟨.date, style⟩ => exact readsOne_of_bind _ .date (fun _ => rfl) fun _ _ => rfl
  | some ⟨.time, style⟩ => exact readsOne_of_bind _ .date (fun _ => rfl) fun _ _ => rfl
  | some ⟨.choice, style⟩ => exact absurd rfl hchoice

theorem index_of_readAlone {x : Placeholder × Text} (h : readAlone setting x = .ok e) :
    e.1 = x.1.index := by
  unfold readAlone at h
  obtain ⟨args, _, rfl⟩ := map_eq_ok_iff.mp h
  rfl

theorem readAlone_of_store {x : Placeholder × Text} {value : Argument}
    (h : ∀ text args, readPiece setting text args x = store text args x.1.index value) :
    readAlone setting x = .ok (x.1.index, value) := by
  have hmissing : Argument.at? [] x.1.index = .missing :=
    Argument.at?_of_length_le (Nat.zero_le x.1.index)
  obtain ⟨args, hargs, _, hat⟩ := store_of_missing x.2 value hmissing
  unfold readAlone
  rw [h, hargs, Except.map, hat, if_pos rfl]

/-- What is read alone is what is stored among other values. -/
theorem of_readAlone (hchoice : p.argType ≠ .choice)
    (h : readAlone setting (p, piece) = .ok e) :
    e.2.readType? = some p.argType ∧
      ∀ text args, readPiece setting text args (p, piece) = store text args p.index e.2 := by
  rcases readsOne_of_not_choice setting piece hchoice with ⟨value, htype, hstore⟩ | ⟨error, herror⟩
  · obtain rfl : (p.index, value) = e := Except.ok.inj ((readAlone_of_store hstore).symm.trans h)
    exact ⟨htype, hstore⟩
  · rw [readAlone, herror] at h
    cases h

/-- The placeholders that take a part of a date and time. -/
def kindOf : DatePart → FormatKind
  | .date => .date
  | .time => .time

theorem readPiece_dateTime (part : DatePart) (index : Nat) (style : Option Text) (text : Text)
    (args : List Argument) :
    readPiece setting text args (⟨index, some ⟨kindOf part, style⟩⟩, piece) =
      DateTime.read setting.currentYear part (DateStyle.parse style) setting.tag piece >>=
        fun d => store text args index (.date d) := by
  cases part with
  | date => rfl
  | time => rfl

theorem readAlone_of_dateTime {part : DatePart} {index : Nat} {style : Option Text} {d : DateTime}
    (h : DateTime.read setting.currentYear part (DateStyle.parse style) setting.tag piece =
      .ok d) :
    readAlone setting (⟨index, some ⟨kindOf part, style⟩⟩, piece) = .ok (index, .date d) := by
  apply readAlone_of_store
  intro text args
  rw [readPiece_dateTime, h]
  rfl

end

section

variable {setting : Setting} {text : Text} {entries : List (Placeholder × Text)}
  {reads : List (Nat × Argument)}

/-- All pieces have values exactly when each of them can be read. -/
theorem exists_reads_iff :
    (∃ reads, entries.mapM (readAlone setting) = .ok reads) ↔
      ∀ x ∈ entries, ∃ args, readPiece setting x.2 [] x = .ok args := by
  constructor
  · rintro ⟨reads, hreads⟩ x hx
    obtain ⟨e, _, he⟩ := exists_right_of_mem (mapM_eq_ok_iff.mp hreads) hx
    obtain ⟨args, hargs, _⟩ := map_eq_ok_iff.mp he
    exact ⟨args, hargs⟩
  · intro halone
    induction entries with
    | nil => exact ⟨[], rfl⟩
    | cons x rest ih =>
      obtain ⟨args, hargs⟩ := halone x List.mem_cons_self
      obtain ⟨reads, hreads⟩ := ih fun y hy => halone y (List.mem_cons_of_mem _ hy)
      refine ⟨(x.1.index, Argument.at? args x.1.index) :: reads, ?_⟩
      rw [List.mapM_cons, hreads, readAlone, hargs]
      rfl

/-- **Pieces are read by storing what each of them is read as alone.** -/
theorem foldlM_readPiece_eq (text : Text) (hchoice : ∀ x ∈ entries, x.1.argType ≠ .choice)
    (hreads : entries.mapM (readAlone setting) = .ok reads) :
    entries.foldlM (readPiece setting text) [] = storeAll text reads := by
  rw [mapM_eq_ok_iff] at hreads
  unfold storeAll
  generalize ([] : List Argument) = args
  induction hreads generalizing args with
  | nil => rfl
  | @cons x e entries reads hx _ ih =>
    obtain ⟨_, hstore⟩ := of_readAlone (hchoice x List.mem_cons_self) hx
    rw [List.foldlM_cons, List.foldlM_cons, hstore, index_of_readAlone hx]
    apply congrArg
    funext next
    exact ih (fun y hy => hchoice y (List.mem_cons_of_mem _ hy)) next

end

/-! ## Section 2: Messages -/

section

variable {setting : Setting} {args : List Argument} {ps : List Placeholder} {pieces : List Text}
  {reads : List (Nat × Argument)} {p q : Placeholder}

/-- A value is read from what was written for a placeholder. -/
theorem exists_placeholder_of_read (hwritten : ps.mapM (written setting.tag args) = .ok pieces)
    (hreads : (ps.zip pieces).mapM (readAlone setting) = .ok reads) {e : Nat × Argument}
    (he : e ∈ reads) :
    ∃ p ∈ ps, ∃ piece, written setting.tag args p = .ok piece ∧
      readAlone setting (p, piece) = .ok e := by
  obtain ⟨⟨p, piece⟩, hmem, hread⟩ := exists_left_of_mem (mapM_eq_ok_iff.mp hreads) he
  exact ⟨p, (List.of_mem_zip hmem).1, piece, List.forall₂_zip (mapM_eq_ok_iff.mp hwritten) hmem,
    hread⟩

/-- A value is read for every placeholder. -/
theorem exists_read_of_placeholder (hlength : pieces.length = ps.length)
    (hreads : (ps.zip pieces).mapM (readAlone setting) = .ok reads) (hp : p ∈ ps) :
    ∃ e ∈ reads, ∃ piece, readAlone setting (p, piece) = .ok e := by
  rw [← List.map_fst_zip (Nat.le_of_eq hlength.symm)] at hp
  obtain ⟨⟨p, piece⟩, hmem, rfl⟩ := List.mem_map.mp hp
  obtain ⟨e, he, hread⟩ := exists_right_of_mem (mapM_eq_ok_iff.mp hreads) hmem
  exact ⟨e, he, piece, hread⟩

theorem map_fst_of_reads (hlength : pieces.length = ps.length)
    (hreads : (ps.zip pieces).mapM (readAlone setting) = .ok reads) :
    reads.map Prod.fst = ps.map Placeholder.index := by
  have hsame : List.Forall₂ (· = ·) (((ps.zip pieces).map Prod.fst).map Placeholder.index)
      (reads.map Prod.fst) := by
    rw [List.map_map, List.forall₂_map_left_iff, List.forall₂_map_right_iff]
    exact (mapM_eq_ok_iff.mp hreads).imp fun x e h => (index_of_readAlone h).symm
  rw [List.forall₂_eq_eq_eq, List.map_fst_zip (Nat.le_of_eq hlength.symm)] at hsame
  exact hsame.symm

/-- Values of placeholders with distinct indices do not contradict each other. -/
theorem coherent_of_distinct_indices (hlength : pieces.length = ps.length)
    (hreads : (ps.zip pieces).mapM (readAlone setting) = .ok reads)
    (hdistinct : (ps.map Placeholder.index).Nodup) : Coherent reads := by
  apply coherent_of_nodup
  rw [map_fst_of_reads hlength hreads]
  exact hdistinct

/-- Values of placeholders that are equal where their indices are do not contradict each other,
unless a value differs from itself. -/
theorem coherent_of_one_form (hwritten : ps.mapM (written setting.tag args) = .ok pieces)
    (hreads : (ps.zip pieces).mapM (readAlone setting) = .ok reads)
    (hform : ∀ p ∈ ps, ∀ q ∈ ps, p.index = q.index → p = q)
    (hself : ∀ e ∈ reads, e.2.same e.2 = true) : Coherent reads := by
  rintro seen e hfront ⟨first, hfirst, hdiffers⟩
  have he : e ∈ reads := hfront.subset (by simp)
  have hearlier : (e.1, first) ∈ reads :=
    hfront.subset (List.mem_append_left _ (mem_of_firstValue? hfirst))
  obtain ⟨p, hp, piece, hpiece, hread⟩ := exists_placeholder_of_read hwritten hreads he
  obtain ⟨q, hq, other, hother, hread'⟩ := exists_placeholder_of_read hwritten hreads hearlier
  -- one placeholder is written as one piece, and a piece is read as one value
  have hindex : p.index = q.index :=
    (index_of_readAlone hread).symm.trans (index_of_readAlone hread')
  obtain rfl := hform p hp q hq hindex
  obtain rfl : piece = other := Except.ok.inj (hpiece.symm.trans hother)
  have hvalue : e = (e.1, first) := Except.ok.inj (hread.symm.trans hread')
  obtain rfl : e.2 = first := congrArg Prod.snd hvalue
  cases hdiffers.symm.trans (hself e he)

/-- Placeholders of one index and different types are read as values that contradict each other. -/
theorem not_coherent_of_types (hlength : pieces.length = ps.length)
    (hreads : (ps.zip pieces).mapM (readAlone setting) = .ok reads)
    (hchoice : ∀ p ∈ ps, p.argType ≠ .choice) (hp : p ∈ ps) (hq : q ∈ ps)
    (hindex : p.index = q.index) (htype : p.argType ≠ q.argType) : ¬Coherent reads := by
  intro hcoherent
  obtain ⟨e, he, piece, hread⟩ := exists_read_of_placeholder hlength hreads hp
  obtain ⟨f, hf, other, hread'⟩ := exists_read_of_placeholder hlength hreads hq
  have heindex := index_of_readAlone hread
  have hfindex := index_of_readAlone hread'
  have hsame := hcoherent.readType?_eq he hf (heindex.trans (hindex.trans hfindex.symm))
  rw [(of_readAlone (hchoice p hp) hread).1, (of_readAlone (hchoice q hq) hread').1] at hsame
  exact htype (Option.some.inj hsame)

end

section

variable {setting : Setting} {template text : Text} {t : Template} {args : List Argument}
  {pieces : List Text} {reads : List (Nat × Argument)}

/-- **A message of readable pieces is read by storing their values.** -/
theorem read_eq_storeAll (hparse : Template.parse template = .ok t)
    (hsep : separated t.segments = true) (hchoice : ∀ p ∈ t.placeholders, p.argType ≠ .choice)
    (hwritten : t.placeholders.mapM (written setting.tag args) = .ok pieces)
    (hdelimited : delimited t.segments pieces = true)
    (hreads : (t.placeholders.zip pieces).mapM (readAlone setting) = .ok reads) :
    read setting template (fill t.segments pieces) = storeAll (fill t.segments pieces) reads := by
  have hcut : cut? t.segments (fill t.segments pieces) = some pieces :=
    cut?_fill (Template.normal_of_parse hparse) hsep
      (mapM_eq_ok_iff.mp hwritten).length_eq.symm hdelimited
  rw [read_of_cut? hparse hcut]
  exact foldlM_readPiece_eq _ (fun x hx => hchoice x.1 (List.of_mem_zip hx).1) hreads

/-- **When every piece of a message can be read alone, the message is read exactly when the values
agree at each index.** Otherwise it fails at the first value that differs from the one before at its
index. Values agree where no index is mentioned twice, and where an index is mentioned in one form
only, unless the value is a number that differs from itself; an untyped mention never agrees with a
typed one. -/
theorem read_of_readable_pieces (hparse : Template.parse template = .ok t)
    (hsep : separated t.segments = true) (hchoice : ∀ p ∈ t.placeholders, p.argType ≠ .choice)
    (hwritten : t.placeholders.mapM (written setting.tag args) = .ok pieces)
    (hdelimited : delimited t.segments pieces = true)
    (halone : ∀ x ∈ t.placeholders.zip pieces, ∃ result, readPiece setting x.2 [] x = .ok result) :
    ∃ text reads, format setting.tag args template = .ok text ∧
      (t.placeholders.zip pieces).mapM (readAlone setting) = .ok reads ∧
      ((∃ result, read setting template text = .ok result) ↔ Coherent reads) ∧
      Outcome text reads (read setting template text) ∧
      ((t.placeholders.map Placeholder.index).Nodup → Coherent reads) ∧
      ((∀ p ∈ t.placeholders, ∀ q ∈ t.placeholders, p.index = q.index → p = q) →
        (∀ e ∈ reads, e.2.same e.2 = true) → Coherent reads) ∧
      ∀ p ∈ t.placeholders, ∀ q ∈ t.placeholders, p.index = q.index → p.argType ≠ q.argType →
        ¬Coherent reads := by
  have hlength : pieces.length = t.placeholders.length :=
    (mapM_eq_ok_iff.mp hwritten).length_eq.symm
  obtain ⟨reads, hreads⟩ := exists_reads_iff.mpr halone
  have hformat : format setting.tag args template = .ok (fill t.segments pieces) := by
    rw [format_eq_fill hparse, hwritten]
    rfl
  -- a value that was read is not missing
  have hpresent : ∀ e ∈ reads, e.2.isMissing = false := by
    intro e he
    obtain ⟨p, hp, piece, _, hread⟩ := exists_placeholder_of_read hwritten hreads he
    exact Argument.isMissing_of_readType? (of_readAlone (hchoice p hp) hread).1
  have houtcome : Outcome (fill t.segments pieces) reads
      (read setting template (fill t.segments pieces)) := by
    rw [read_eq_storeAll hparse hsep hchoice hwritten hdelimited hreads]
    exact outcome_storeAll _ hpresent
  refine ⟨fill t.segments pieces, reads, hformat, hreads, houtcome.exists_ok_iff, houtcome,
    ?_, ?_, ?_⟩
  · exact coherent_of_distinct_indices hlength hreads
  · exact coherent_of_one_form hwritten hreads
  · intro p hp q hq
    exact not_coherent_of_types hlength hreads hchoice hp hq

end

/-- The same date stands on both sides of a text. -/
theorem read_of_readable_pieces_again :
    let segments : List Segment :=
      [.placeholder ⟨1, some ⟨.date, none⟩⟩, .literal " / ".toList, .placeholder ⟨0, none⟩,
        .literal " / ".toList, .placeholder ⟨1, some ⟨.date, none⟩⟩]
    let setting : Setting := ⟨⟨"en".toList, none, none, []⟩, 2024⟩
    let v : DateTime := .ofDate ⟨2024, 3, 9, by decide, by decide⟩
    let args : List Argument := [.text "Ann".toList, .date v]
    let template := printAll segments
    let pieces : List Text := ["Mar 9, 2024".toList, "Ann".toList, "Mar 9, 2024".toList]
    Template.parse template = .ok ⟨template, segments⟩ ∧ separated segments = true ∧
      (∀ p ∈ placeholders segments, p.argType ≠ .choice) ∧
      (placeholders segments).mapM (written setting.tag args) = .ok pieces ∧
      delimited segments pieces = true ∧
      (∀ x ∈ (placeholders segments).zip pieces, ∃ result,
        readPiece setting x.2 [] x = .ok result) ∧
      ∃ text result, format setting.tag args template = .ok text ∧
        read setting template text = .ok result := by
  intro segments setting v args template pieces
  have hparse : Template.parse template = .ok ⟨template, segments⟩ :=
    Template.parse_printAll (by decide)
  have hsep : separated segments = true := rfl
  have hchoice : ∀ p ∈ placeholders segments, p.argType ≠ .choice := by decide
  have hwritten : (placeholders segments).mapM (written setting.tag args) = .ok pieces := by
    decide +kernel
  have hdelimited : delimited segments pieces = true := rfl
  have hdate : DateTime.read 2024 .date (DateStyle.parse none) setting.tag "Mar 9, 2024".toList =
      .ok v := by decide +kernel
  have hreads : ((placeholders segments).zip pieces).mapM (readAlone setting) =
      .ok [(1, .date v), (0, .text "Ann".toList), (1, .date v)] := by
    have hfirst : readAlone setting (⟨1, some ⟨.date, none⟩⟩, "Mar 9, 2024".toList) =
        .ok (1, .date v) := readAlone_of_dateTime hdate
    have hsecond : readAlone setting (⟨0, none⟩, "Ann".toList) = .ok (0, .text "Ann".toList) :=
      readAlone_of_store fun _ _ => rfl
    exact mapM_eq_ok_iff.mpr (.cons hfirst (.cons hsecond (.cons hfirst .nil)))
  have halone := exists_reads_iff.mp ⟨_, hreads⟩
  obtain ⟨text, reads, hformat, hreads', hread, _, _, honce, _⟩ :=
    read_of_readable_pieces hparse hsep hchoice hwritten hdelimited halone
  obtain rfl := Except.ok.inj (hreads.symm.trans hreads')
  have hcoherent : Coherent _ := honce (by decide) (by simp [Argument.same])
  obtain ⟨result, hresult⟩ := hread.mpr hcoherent
  exact ⟨hparse, hsep, hchoice, hwritten, hdelimited, halone, text, result, hformat, hresult⟩

/-- A message in which both a date and a time of one index stand cannot be read, though each of them
can: the date is read as one at midnight, the time as one of the first of January 1970. -/
theorem unreadable_date_and_time :
    let segments : List Segment :=
      [.placeholder ⟨0, some ⟨.date, none⟩⟩, .literal " / ".toList,
        .placeholder ⟨0, some ⟨.time, none⟩⟩]
    let setting : Setting := ⟨⟨"en".toList, none, some "US".toList, []⟩, 2024⟩
    let v : DateTime := ⟨⟨2024, 3, 9, by decide, by decide⟩,
      ⟨14, 5, 7, 0, by decide, by decide, by decide, by decide⟩⟩
    let args : List Argument := [.date v]
    let template := printAll segments
    let pieces : List Text := ["Mar 9, 2024".toList, "2:05:07 PM".toList]
    let text := "Mar 9, 2024 / 2:05:07 PM".toList
    Template.parse template = .ok ⟨template, segments⟩ ∧
      Template.signature ⟨template, segments⟩ = .ok ⟨[.date]⟩ ∧
      separated segments = true ∧ (∀ p ∈ placeholders segments, p.argType ≠ .choice) ∧
      Signature.Admits ⟨[.date]⟩ args ∧ (∀ arg ∈ args, arg.isMissing = false) ∧ 0 ≤ v.date.year ∧
      (placeholders segments).mapM (written setting.tag args) = .ok pieces ∧
      delimited segments pieces = true ∧
      (∀ x ∈ (placeholders segments).zip pieces, ∃ result,
        readPiece setting x.2 [] x = .ok result) ∧
      format setting.tag args template = .ok text ∧
      read setting template text = .error (contradiction text 0) := by
  intro segments setting v args template pieces text
  have hparse : Template.parse template = .ok ⟨template, segments⟩ :=
    Template.parse_printAll (by decide)
  have hsep : separated segments = true := rfl
  have hchoice : ∀ p ∈ placeholders segments, p.argType ≠ .choice := by decide
  have hargs : Signature.Admits ⟨[.date]⟩ args := by
    intro index type htype
    match index with
    | 0 => obtain rfl := Option.some.inj htype; rfl
    | _ + 1 => cases htype
  have hwritten : (placeholders segments).mapM (written setting.tag args) = .ok pieces := by
    decide +kernel
  have hformat : format setting.tag args template = .ok text := by
    rw [format_eq_fill hparse]
    show Except.map (fill segments) ((placeholders segments).mapM (written setting.tag args)) = _
    rw [hwritten]
    rfl
  have hdelimited : delimited segments pieces = true := rfl
  -- midnight of the day, and the time of another day
  have hdate : DateTime.read 2024 .date (DateStyle.parse none) setting.tag "Mar 9, 2024".toList =
      .ok (.ofDate v.date) := by decide +kernel
  have htime : DateTime.read 2024 .time (DateStyle.parse none) setting.tag "2:05:07 PM".toList =
      .ok ⟨⟨1970, 1, 1, by decide, by decide⟩, v.time⟩ := by decide +kernel
  have hreads : ((placeholders segments).zip pieces).mapM (readAlone setting) =
      .ok [(0, .date (.ofDate v.date)), (0, .date ⟨⟨1970, 1, 1, by decide, by decide⟩, v.time⟩)] :=
    mapM_eq_ok_iff.mpr (.cons (readAlone_of_dateTime hdate) (.cons (readAlone_of_dateTime htime) .nil))
  have hread : read setting template text = .error (contradiction text 0) := by
    show read setting template (fill segments pieces) = _
    rw [read_eq_storeAll hparse hsep hchoice hwritten hdelimited hreads]
    rfl
  refine ⟨hparse, by rfl, hsep, hchoice, hargs, ?_, by decide, hwritten, hdelimited,
    exists_reads_iff.mp ⟨_, hreads⟩, hformat, hread⟩
  intro arg harg
  obtain rfl := List.mem_singleton.mp harg
  rfl

end MessageCatalog.Message
