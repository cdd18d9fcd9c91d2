import MessageCatalog.Proofs.TemplateRoundTrip

/-!
# Cutting a text along segments

A message is its segments filled with one piece for each placeholder. Reading cuts a text back into
pieces: it never goes back, but takes the leftmost occurrence of the literal behind a placeholder,
and the end of the text for a closing literal. This module defines the filling and the cut and
relates them.

## Main statements

* `fill_of_cut?` : the pieces of a cut fill the segments to the text
* `exists_cut?_fill` : a text that is a filling can be cut, since the leftmost choice loses no match
* `cut?_fill` : the cut gives back the pieces when no delimiter occurs too early
-/

namespace MessageCatalog

namespace Text

/-! ## Section 1: Leftmost occurrences -/

theorem startsWith_eq_true_iff {head t : Text} :
    startsWith head t = true ↔ ∃ rest, t = head ++ rest := by
  simp only [startsWith, Option.isSome_iff_exists, stripPrefix?_eq_some_iff]

theorem stripPrefix?_append (head rest : Text) : stripPrefix? head (head ++ rest) = some rest :=
  stripPrefix?_eq_some_iff.mpr rfl

theorem stripSuffix?_append (rest tail : Text) : stripSuffix? tail (rest ++ tail) = some rest :=
  stripSuffix?_eq_some_iff.mpr rfl

/-- Whether a text starts with `head` does not depend on what stands behind as many characters. -/
theorem startsWith_append_of_le {head t : Text} (h : head.length ≤ t.length) (rest : Text) :
    startsWith head (t ++ rest) = startsWith head t := by
  rw [Bool.eq_iff_iff, startsWith_eq_true_iff, startsWith_eq_true_iff]
  constructor
  · rintro ⟨after, hafter⟩
    have hpre : head <+: t ++ rest := ⟨after, hafter.symm⟩
    obtain ⟨r, hr⟩ := List.prefix_of_prefix_length_le hpre (List.prefix_append t rest) h
    exact ⟨r, hr.symm⟩
  · rintro ⟨r, rfl⟩
    exact ⟨r ++ rest, List.append_assoc ..⟩

/-- A text is broken at its front when the needle stands there. -/
theorem breakAt?_of_startsWith {needle t : Text} (h : startsWith needle t = true) :
    breakAt? needle t = some ([], t) := by
  cases t with
  | nil =>
    obtain ⟨rest, hrest⟩ := startsWith_eq_true_iff.mp h
    have hneedle : needle = [] := (List.append_eq_nil_iff.mp hrest.symm).1
    rw [breakAt?, if_pos hneedle]
  | cons c cs => rw [breakAt?, if_pos h]

theorem breakAt?_cons_of_not_startsWith {needle t : Text} {c : Char}
    (h : startsWith needle (c :: t) = false) :
    breakAt? needle (c :: t) = (breakAt? needle t).map fun (before, rest) => (c :: before, rest) := by
  rw [breakAt?, h]
  rfl

/-- **The leftmost occurrence comes no later than any other.** What stands behind the other one
still stands at the end of what is left. -/
theorem breakAt?_append (needle before after : Text) :
    ∃ first skipped, breakAt? needle (before ++ (needle ++ after)) =
      some (first, needle ++ (skipped ++ after)) := by
  induction before with
  | nil =>
    exact ⟨[], [], breakAt?_of_startsWith (startsWith_eq_true_iff.mpr ⟨after, rfl⟩)⟩
  | cons c cs ih =>
    by_cases hs : startsWith needle (c :: (cs ++ (needle ++ after))) = true
    · obtain ⟨rest, hrest⟩ := startsWith_eq_true_iff.mp hs
      -- the other occurrence ends further right, so its tail is a part of the rest
      have hlong : after.length ≤ rest.length := by
        have := congrArg List.length hrest
        simp only [List.length_cons, List.length_append] at this
        omega
      have hsuffix : after <:+ c :: (cs ++ (needle ++ after)) :=
        ⟨c :: (cs ++ needle), by simp⟩
      obtain ⟨skipped, rfl⟩ : after <:+ rest :=
        List.suffix_of_suffix_length_le hsuffix ⟨needle, hrest.symm⟩ hlong
      refine ⟨[], skipped, ?_⟩
      rw [List.cons_append, breakAt?_of_startsWith hs, hrest]
    · obtain ⟨first, skipped, hb⟩ := ih
      refine ⟨c :: first, skipped, ?_⟩
      rw [List.cons_append, breakAt?_cons_of_not_startsWith (Bool.not_eq_true _ ▸ hs), hb]
      rfl

/-- Whether a literal behind a piece occurs there and nowhere before. -/
def delimits (literal piece : Text) : Bool :=
  decide (∀ offset < piece.length, startsWith literal ((piece ++ literal).drop offset) = false)

theorem delimits_of_delimits_cons {literal piece : Text} {c : Char}
    (h : delimits literal (c :: piece) = true) : delimits literal piece = true := by
  simp only [delimits, decide_eq_true_eq] at h ⊢
  intro offset hoffset
  -- an offset into the shorter piece is one more in the longer one
  exact h (offset + 1) (Nat.succ_lt_succ hoffset)

/-- **A piece ends at the leftmost occurrence of the literal that delimits it.** -/
theorem breakAt?_of_delimits {literal piece : Text} (h : delimits literal piece = true)
    (after : Text) :
    breakAt? literal (piece ++ (literal ++ after)) = some (piece, literal ++ after) := by
  induction piece with
  | nil => exact breakAt?_of_startsWith (startsWith_eq_true_iff.mpr ⟨after, rfl⟩)
  | cons c cs ih =>
    have hfront : startsWith literal (c :: (cs ++ literal)) = false :=
      of_decide_eq_true h 0 (Nat.succ_pos _)
    -- nor does it stand there in the whole text, since the piece with its literal is long enough
    have hs : startsWith literal (c :: (cs ++ (literal ++ after))) = false := by
      have hle : literal.length ≤ (c :: (cs ++ literal)).length := by simp; omega
      have := startsWith_append_of_le hle after
      rw [hfront] at this
      simpa using this
    rw [List.cons_append, breakAt?_cons_of_not_startsWith hs, ih (delimits_of_delimits_cons h)]
    rfl

end Text

namespace Segment

open Text

/-! ## Section 2: Filling and cutting -/

/-- The text of some segments, with pieces in place of the placeholders. -/
def fill : List Segment → List Text → Text
  | [], _ => []
  | literal t :: rest, pieces => t ++ fill rest pieces
  | placeholder _ :: rest, pieces => pieces.headD [] ++ fill rest pieces.tail

/-- Whether no two placeholders stand side by side. -/
def separated : List Segment → Bool
  | [] => true
  | literal _ :: rest => separated rest
  | placeholder _ :: placeholder _ :: _ => false
  | placeholder _ :: rest => separated rest

/-- What a placeholder takes of the rest of a text, given the segments after it, and what is left. -/
def capture? (rest : Text) : List Segment → Option (Text × Text)
  | [] => some (rest, [])
  | [literal last] => (stripSuffix? last rest).map fun captured => (captured, last)
  | literal next :: _ => breakAt? next rest
  | placeholder _ :: _ => none

/-- The pieces that the placeholders of some segments take of a text. -/
def cut? : List Segment → Text → Option (List Text)
  | [], rest => if rest = [] then some [] else none
  | literal t :: segments, rest => (stripPrefix? t rest).bind (cut? segments)
  | placeholder _ :: segments, rest =>
    (capture? rest segments).bind fun (piece, rest) => (cut? segments rest).map (piece :: ·)

/-- Whether a piece before some segments is found by the literal that follows it. Only a literal
that is not the last segment is looked for. -/
def endsBefore (piece : Text) : List Segment → Bool
  | literal next :: _ :: _ => delimits next piece
  | _ => true

/-- Whether every piece is found by the literal that follows its placeholder. -/
def delimited : List Segment → List Text → Bool
  | [], _ => true
  | literal _ :: rest, pieces => delimited rest pieces
  | placeholder _ :: rest, pieces =>
    endsBefore (pieces.headD []) rest && delimited rest pieces.tail

/-! ## Section 3: Captures -/

theorem eq_append_of_capture? {segments : List Segment} {rest piece left : Text}
    (h : capture? rest segments = some (piece, left)) : rest = piece ++ left := by
  match segments with
  | [] =>
    obtain ⟨rfl, rfl⟩ : rest = piece ∧ [] = left := by simpa [capture?] using h
    exact (List.append_nil rest).symm
  | [literal last] =>
    obtain ⟨captured, hcaptured, he⟩ := Option.map_eq_some_iff.mp h
    obtain ⟨rfl, rfl⟩ : captured = piece ∧ last = left := by simpa using he
    exact stripSuffix?_eq_some_iff.mp hcaptured
  | literal next :: _ :: _ => exact (breakAt?_eq_some h).1
  | placeholder _ :: _ => simp [capture?] at h

/-- Behind a placeholder stands the end, a closing literal, or a literal and another placeholder. -/
theorem cases_of_normal_separated {p : Placeholder} {segments : List Segment}
    (hnormal : normal (placeholder p :: segments) = true)
    (hsep : separated (placeholder p :: segments) = true) :
    segments = [] ∨ (∃ last, segments = [literal last]) ∨
      ∃ next q rest, segments = literal next :: placeholder q :: rest := by
  match segments with
  | [] => exact .inl rfl
  | [literal last] => exact .inr (.inl ⟨last, rfl⟩)
  | literal next :: placeholder q :: rest => exact .inr (.inr ⟨next, q, rest, rfl⟩)
  | literal _ :: literal _ :: _ => simp [normal] at hnormal
  | placeholder _ :: _ => simp [separated] at hsep

theorem normal_of_normal_cons {segment : Segment} {segments : List Segment}
    (h : normal (segment :: segments) = true) : normal segments = true := by
  cases segment with
  | literal t =>
    rw [Template.normal_literal_cons, Bool.and_eq_true] at h
    exact h.2
  | placeholder p =>
    rw [Template.normal_placeholder_cons, Bool.and_eq_true] at h
    exact h.2

theorem separated_of_separated_cons {segment : Segment} {segments : List Segment}
    (h : separated (segment :: segments) = true) : separated segments = true := by
  match segment, segments with
  | _, [] => rfl
  | literal _, _ :: _ => simpa [separated] using h
  | placeholder _, literal _ :: _ => simpa [separated] using h
  | placeholder _, placeholder _ :: _ => simp [separated] at h

/-- **A placeholder takes a piece of a filling and leaves a filling.** The next piece is longer when
the literal between them occurs early. -/
theorem exists_capture?_fill {p : Placeholder} {segments : List Segment}
    (hnormal : normal (placeholder p :: segments) = true)
    (hsep : separated (placeholder p :: segments) = true) (piece : Text) (pieces : List Text) :
    ∃ found left, capture? (piece ++ fill segments pieces) segments =
      some (found, fill segments left) := by
  rcases cases_of_normal_separated hnormal hsep with rfl | ⟨last, rfl⟩ | ⟨next, q, rest, rfl⟩
  · exact ⟨piece ++ [], [], rfl⟩
  · refine ⟨piece, [], ?_⟩
    simp only [fill, List.append_nil, capture?, stripSuffix?_append, Option.map_some]
  · -- what the early occurrence skips goes to the next piece
    obtain ⟨first, skipped, hb⟩ :=
      breakAt?_append next piece (pieces.headD [] ++ fill rest pieces.tail)
    refine ⟨first, (skipped ++ pieces.headD []) :: pieces.tail, ?_⟩
    simp only [fill, capture?, hb, List.headD_cons, List.tail_cons, List.append_assoc]

/-- **A delimited piece is what its placeholder takes.** -/
theorem capture?_fill {p : Placeholder} {segments : List Segment}
    (hnormal : normal (placeholder p :: segments) = true)
    (hsep : separated (placeholder p :: segments) = true) {piece : Text}
    (hends : endsBefore piece segments = true) (pieces : List Text) :
    capture? (piece ++ fill segments pieces) segments = some (piece, fill segments pieces) := by
  rcases cases_of_normal_separated hnormal hsep with rfl | ⟨last, rfl⟩ | ⟨next, q, rest, rfl⟩
  · simp only [fill, capture?, List.append_nil]
  · simp only [fill, List.append_nil, capture?, stripSuffix?_append, Option.map_some]
  · simp only [fill, capture?]
    exact breakAt?_of_delimits hends _

/-! ## Section 4: Cuts -/

theorem length_of_cut? {segments : List Segment} {text : Text} {pieces : List Text}
    (h : cut? segments text = some pieces) : pieces.length = (placeholders segments).length := by
  induction segments generalizing text pieces with
  | nil =>
    by_cases htext : text = []
    · obtain rfl : [] = pieces := by simpa [cut?, htext] using h
      rfl
    · simp [cut?, htext] at h
  | cons segment rest ih =>
    cases segment with
    | literal t =>
      obtain ⟨left, _, hcut⟩ := Option.bind_eq_some_iff.mp h
      exact ih hcut
    | placeholder p =>
      obtain ⟨⟨piece, left⟩, _, hcut⟩ := Option.bind_eq_some_iff.mp h
      obtain ⟨others, hothers, rfl⟩ := Option.map_eq_some_iff.mp hcut
      exact congrArg Nat.succ (ih hothers)

/-- **The pieces of a cut fill the segments to the text.** -/
theorem fill_of_cut? {segments : List Segment} {text : Text} {pieces : List Text}
    (h : cut? segments text = some pieces) : fill segments pieces = text := by
  induction segments generalizing text pieces with
  | nil =>
    by_cases htext : text = []
    · exact htext.symm
    · simp [cut?, htext] at h
  | cons segment rest ih =>
    cases segment with
    | literal t =>
      obtain ⟨left, hstrip, hcut⟩ := Option.bind_eq_some_iff.mp h
      rw [fill, ih hcut, stripPrefix?_eq_some_iff.mp hstrip]
    | placeholder p =>
      obtain ⟨⟨piece, left⟩, hcapture, hcut⟩ := Option.bind_eq_some_iff.mp h
      obtain ⟨others, hothers, rfl⟩ := Option.map_eq_some_iff.mp hcut
      rw [eq_append_of_capture? hcapture, ← ih hothers]
      rfl

/-- **A text that fills the segments can be cut.** Each step leaves a filling of the segments that
remain, so the leftmost choice never loses a match. -/
theorem exists_cut?_fill {segments : List Segment} (hnormal : normal segments = true)
    (hsep : separated segments = true) (pieces : List Text) :
    ∃ found, cut? segments (fill segments pieces) = some found := by
  -- the pieces are arbitrary, since those behind an early occurrence are no longer the given ones
  induction segments generalizing pieces with
  | nil => exact ⟨[], rfl⟩
  | cons segment rest ih =>
    have ih := ih (normal_of_normal_cons hnormal) (separated_of_separated_cons hsep)
    cases segment with
    | literal t =>
      simp only [fill, cut?, stripPrefix?_append, Option.bind_some]
      exact ih pieces
    | placeholder p =>
      obtain ⟨piece, left, hcapture⟩ :=
        exists_capture?_fill hnormal hsep (pieces.headD []) pieces.tail
      obtain ⟨others, hothers⟩ := ih left
      refine ⟨piece :: others, ?_⟩
      simp only [fill, cut?, hcapture, Option.bind_some, hothers, Option.map_some]

/-- **Delimited pieces are found again.** -/
theorem cut?_fill {segments : List Segment} (hnormal : normal segments = true)
    (hsep : separated segments = true) {pieces : List Text}
    (hlength : pieces.length = (placeholders segments).length)
    (hdelimited : delimited segments pieces = true) :
    cut? segments (fill segments pieces) = some pieces := by
  induction segments generalizing pieces with
  | nil =>
    obtain rfl := List.eq_nil_of_length_eq_zero hlength
    rfl
  | cons segment rest ih =>
    have ih := @ih (normal_of_normal_cons hnormal) (separated_of_separated_cons hsep)
    cases segment with
    | literal t =>
      simp only [fill, cut?, stripPrefix?_append, Option.bind_some]
      exact ih hlength hdelimited
    | placeholder p =>
      -- there is a piece for every placeholder
      cases pieces with
      | nil => simp at hlength
      | cons piece others =>
        obtain ⟨hends, hrest⟩ := Bool.and_eq_true_iff.mp hdelimited
        have hothers := ih (Nat.succ.inj hlength) hrest
        have hcapture := capture?_fill hnormal hsep hends others
        simp only [List.headD_cons] at hcapture
        simp only [fill, List.headD_cons, List.tail_cons, cut?, hcapture, Option.bind_some, hothers,
          Option.map_some]

end Segment

end MessageCatalog
