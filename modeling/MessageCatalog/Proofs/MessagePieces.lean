import MessageCatalog.Message.Reader
import MessageCatalog.Proofs.Segmentation

/-!
# Messages piece by piece

Formatting and reading go through the segments of a template by different rules. Here both are
taken apart into what happens to the text as a whole, filling and cutting, and what happens to one
placeholder. The bound that their recursion carries disappears on the way.

## Main statements

* `format_eq_fill` : a message is its segments filled with what is written for the placeholders
* `read_of_cut?` : a text that can be cut is read by reading its pieces in order
* `exists_cut?_of_read` : only a text that can be cut is read
-/

namespace MessageCatalog.Message

open Text Segment

/-! ## Section 1: Formatting -/

/-- What is written for a placeholder at the top level of a template. -/
def written (tag : LocaleTag) (args : List Argument) (p : Placeholder) : Except FormatError Text :=
  formatPlaceholder tag args (choicePattern p).length (fun inner _ => format tag args inner) p le_rfl

/-- The bound on nested templates does not matter. -/
theorem formatPlaceholder_eq_written (tag : LocaleTag) (args : List Argument) {bound : Nat}
    (p : Placeholder) (hp : (choicePattern p).length ≤ bound) :
    formatPlaceholder tag args bound (fun inner _ => format tag args inner) p hp =
      written tag args p := rfl

theorem written_of_untyped {tag : LocaleTag} {args : List Argument} {p : Placeholder} {t : Text}
    (hp : p.format = none) (harg : Argument.at? args p.index = .text t) :
    written tag args p = .ok t := by
  unfold written formatPlaceholder formatArgument
  simp only [harg, hp, Argument.isMissing, formatUntyped]
  rfl

theorem formatSegments_eq_fill (tag : LocaleTag) (args : List Argument) {bound : Nat}
    (segments : List Segment)
    (h : ∀ p ∈ placeholders segments, (choicePattern p).length ≤ bound) :
    formatSegments tag args bound (fun inner _ => format tag args inner) segments h =
      ((placeholders segments).mapM (written tag args)).map (fill segments) := by
  -- both sides stop at the first placeholder that cannot be written
  induction segments with
  | nil => rfl
  | cons segment rest ih =>
    cases segment with
    | literal t =>
      rw [formatSegments, ih, placeholders_literal]
      cases (placeholders rest).mapM (written tag args) with
      | error e => rfl
      | ok pieces => rfl
    | placeholder p =>
      rw [formatSegments, ih, placeholders_placeholder, formatPlaceholder_eq_written, List.mapM_cons]
      cases written tag args p with
      | error e => rfl
      | ok piece =>
        cases (placeholders rest).mapM (written tag args) with
        | error e => rfl
        | ok pieces => rfl

/-- **A message is its segments filled with what is written for the placeholders.** -/
theorem format_eq_fill {tag : LocaleTag} {args : List Argument} {template : Text} {t : Template}
    (h : Template.parse template = .ok t) :
    format tag args template =
      (t.placeholders.mapM (written tag args)).map (fill t.segments) := by
  rw [format_of_parse h]
  exact formatSegments_eq_fill tag args t.segments _

/-! ## Section 2: Reading -/

/-- Read the piece that a placeholder at the top level of a template takes of a text. -/
def readPiece (setting : Setting) (text : Text) (args : List Argument) (e : Placeholder × Text) :
    Except FormatError (List Argument) :=
  readPlaceholder setting text (choicePattern e.1).length
    (fun inner _ text => read setting inner text) e.1 le_rfl e.2 args

theorem readChoice_congr_bound {setting : Setting} {text captured : Text} {index bound bound' : Nat}
    {args : List Argument} (alternatives : List Alternative)
    (h : ∀ a ∈ alternatives, a.text.length < bound)
    (h' : ∀ a ∈ alternatives, a.text.length < bound') :
    readChoice text captured index bound (fun inner _ text => read setting inner text) args
        alternatives h =
      readChoice text captured index bound' (fun inner _ text => read setting inner text) args
        alternatives h' := by
  induction alternatives with
  | nil => rfl
  | cons a rest ih =>
    rw [readChoice, readChoice, ih]

/-- The bound on nested templates does not matter. -/
theorem readPlaceholder_eq_readPiece (setting : Setting) (text : Text) {bound : Nat}
    (p : Placeholder) (hp : (choicePattern p).length ≤ bound) (piece : Text)
    (args : List Argument) :
    readPlaceholder setting text bound (fun inner _ text => read setting inner text) p hp piece args =
      readPiece setting text args (p, piece) := by
  obtain ⟨index, format⟩ := p
  match format with
  | none => rfl
  | some ⟨.number, style⟩ => rfl
  | some ⟨.date, style⟩ => rfl
  | some ⟨.time, style⟩ => rfl
  | some ⟨.choice, style⟩ =>
    -- only a choice reads along nested templates
    simp only [readPiece, readPlaceholder]
    split
    · rfl
    · exact readChoice_congr_bound _ _ _

theorem readPiece_of_untyped {setting : Setting} {text : Text} {args : List Argument}
    {p : Placeholder} (hp : p.format = none) (piece : Text) :
    readPiece setting text args (p, piece) = store text args p.index (.text piece) := by
  unfold readPiece readPlaceholder
  simp only [hp]

/-- A placeholder takes a piece of a text exactly when it captures one. -/
theorem capture_eq_ok_iff {text rest : Text} {p : Placeholder} {segments : List Segment}
    {found : Text × Text} :
    capture text p rest segments = .ok found ↔ capture? rest segments = some found := by
  match segments with
  | [] => simp [capture, capture?]
  | [literal last] =>
    simp only [capture, capture?]
    cases stripSuffix? last rest <;> simp
  | literal next :: _ :: _ =>
    simp only [capture, capture?]
    cases breakAt? next rest <;> simp
  | placeholder _ :: _ => simp [capture, capture?]

theorem readSegments_of_cut? {setting : Setting} {text rest : Text} {bound : Nat}
    {segments : List Segment} {args : List Argument} {pieces : List Text}
    (h : ∀ p ∈ placeholders segments, (choicePattern p).length ≤ bound)
    (hcut : cut? segments rest = some pieces) :
    readSegments setting text bound (fun inner _ text => read setting inner text) segments h rest
        args =
      ((placeholders segments).zip pieces).foldlM (readPiece setting text) args := by
  -- the cut settles what is taken, so only reading a piece can still fail
  induction segments generalizing rest pieces args with
  | nil =>
    by_cases hrest : rest = []
    · rw [readSegments, if_pos hrest]
      rfl
    · simp [cut?, hrest] at hcut
  | cons segment segments ih =>
    cases segment with
    | literal t =>
      obtain ⟨left, hstrip, hleft⟩ := Option.bind_eq_some_iff.mp hcut
      rw [readSegments, hstrip]
      exact ih _ hleft
    | placeholder p =>
      obtain ⟨⟨piece, left⟩, hcapture, hleft⟩ := Option.bind_eq_some_iff.mp hcut
      obtain ⟨others, hothers, rfl⟩ := Option.map_eq_some_iff.mp hleft
      rw [readSegments, capture_eq_ok_iff.mpr hcapture, placeholders_placeholder,
        List.zip_cons_cons, List.foldlM_cons]
      simp only [bind, Except.bind, readPlaceholder_eq_readPiece]
      cases readPiece setting text args (p, piece) with
      | error e => rfl
      | ok args => exact ih _ hothers

/-- **A text that can be cut is read by reading its pieces in order.** -/
theorem read_of_cut? {setting : Setting} {template text : Text} {t : Template} {pieces : List Text}
    (h : Template.parse template = .ok t) (hcut : cut? t.segments text = some pieces) :
    read setting template text =
      (t.placeholders.zip pieces).foldlM (readPiece setting text) [] := by
  rw [read_of_parse h]
  exact readSegments_of_cut? _ hcut

theorem exists_cut?_of_readSegments {setting : Setting} {text rest : Text} {bound : Nat}
    {segments : List Segment} {args result : List Argument}
    {h : ∀ p ∈ placeholders segments, (choicePattern p).length ≤ bound}
    (hread : readSegments setting text bound (fun inner _ text => read setting inner text) segments h
      rest args = .ok result) :
    ∃ pieces, cut? segments rest = some pieces := by
  -- no step of a reading that succeeds misses its literal
  induction segments generalizing rest args with
  | nil =>
    by_cases hrest : rest = []
    · exact ⟨[], by rw [cut?, if_pos hrest]⟩
    · simp [readSegments, hrest] at hread
  | cons segment segments ih =>
    cases segment with
    | literal t =>
      rw [readSegments] at hread
      cases hstrip : stripPrefix? t rest with
      | none => simp [hstrip] at hread
      | some left =>
        rw [hstrip] at hread
        obtain ⟨pieces, hpieces⟩ := ih hread
        exact ⟨pieces, by rw [cut?, hstrip, Option.bind_some, hpieces]⟩
    | placeholder p =>
      rw [readSegments] at hread
      cases hcapture : capture text p rest segments with
      | error e => simp [hcapture, bind, Except.bind] at hread
      | ok found =>
        obtain ⟨piece, left⟩ := found
        simp only [hcapture, bind, Except.bind, readPlaceholder_eq_readPiece] at hread
        cases hpiece : readPiece setting text args (p, piece) with
        | error e => simp [hpiece] at hread
        | ok args =>
          rw [hpiece] at hread
          obtain ⟨others, hothers⟩ := ih hread
          refine ⟨piece :: others, ?_⟩
          simp only [cut?, capture_eq_ok_iff.mp hcapture, Option.bind_some, hothers, Option.map_some]

/-- **Only a text that can be cut is read.** -/
theorem exists_cut?_of_read {setting : Setting} {template text : Text} {t : Template}
    {args : List Argument} (h : Template.parse template = .ok t)
    (hread : read setting template text = .ok args) :
    ∃ pieces, cut? t.segments text = some pieces := by
  rw [read_of_parse h] at hread
  exact exists_cut?_of_readSegments hread

end MessageCatalog.Message
