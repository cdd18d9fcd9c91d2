import MessageCatalog.Text.Basic

/-!
# Decimal patterns

A decimal pattern such as `#,##0.00` is a row of digit places between literal affixes. `0` is a
place that is always written, `#` one that is not, `.` divides whole and fraction, and the last `,`
sets the size of the groups. Only what stands before the first semicolon counts. A quoted span is
literal; two quotes in a row are one literal quote. An unquoted percent or per-mille sign is literal
as well and scales the number.

## Main statements

* `grouping_pos` : the groups of an accepted pattern are not empty
-/

namespace MessageCatalog

open Text

/-- How many digits are written, and how they are grouped. -/
structure Layout where
  minWhole : Nat
  minFraction : Nat
  maxFraction : Nat
  grouping : Option Nat
  deriving DecidableEq, Repr

namespace Layout

/-- Groups of three and up to three fraction digits. -/
def standard : Layout := ⟨1, 0, 3, some 3⟩

/-- Groups of three and no fraction digits. -/
def whole : Layout := ⟨1, 0, 0, some 3⟩

/-- Groups of three and a fixed number of fraction digits. -/
def fixed (digits : Nat) : Layout := ⟨1, digits, digits, some 3⟩

end Layout

/-- A decimal pattern: the texts around the digits, their layout, and the factor of the number. -/
structure DecimalPattern where
  before : Text
  after : Text
  layout : Layout
  factor : Nat
  deriving DecidableEq, Repr

namespace DecimalPattern

/-- What has been read of a pattern: the affixes, the digit places, the factor, and whether the
last character was a digit place. -/
structure Scan where
  before : Text
  after : Text
  places : Text
  factor : Nat
  inPlaces : Bool

namespace Scan

/-- Nothing read yet. -/
def start : Scan := ⟨[], [], [], 1, false⟩

/-- Take a literal character: into the first affix until there is a digit place. -/
def affix (s : Scan) (c : Char) : Scan :=
  if s.places = [] then { s with before := s.before ++ [c] } else { s with after := s.after ++ [c] }

/-- The factor after an unquoted literal character. -/
def factorAfter (factor : Nat) (c : Char) : Nat :=
  if c = '%' then 100 else if c = '\u2030' then 1000 else factor

/-- The characters of digit places. -/
def isPlace (c : Char) : Bool := c == '#' || c == '0' || c == ',' || c == '.'

/-- Take one unquoted character: a digit place while the places are not over, a literal
otherwise. -/
def unquoted (s : Scan) (c : Char) : Scan :=
  if isPlace c && (s.inPlaces || s.places.isEmpty) then
    { s with places := s.places ++ [c], inPlaces := true }
  else { s.affix c with inPlaces := false, factor := factorAfter s.factor c }

/-- Read the characters of a pattern; a quote must not stay open. -/
def run : (inQuote : Bool) → Scan → Text → Option Scan
  | inQuote, s, [] => if inQuote then none else some s
  | inQuote, s, '\'' :: '\'' :: cs => run inQuote (s.affix '\'') cs
  | inQuote, s, c :: cs =>
    if c = '\'' then run (!inQuote) { s with inPlaces := false } cs
    else if inQuote then run inQuote (s.affix c) cs
    else run inQuote (s.unquoted c) cs

end Scan

/-- The size of the groups that some whole places ask for; `none` when nothing follows the last
comma. -/
def groupSize? (whole : Text) : Option (Option Nat) :=
  if ',' ∈ whole then
    let size := (whole.reverse.takeWhile (· != ',')).length
    if size = 0 then none else some (some size)
  else some none

/-- The layout of some digit places: at least one `#` or `0`, at most one point, and no comma after
it. -/
def layoutOf? (places : Text) : Option Layout :=
  if !places.any (fun c => c == '#' || c == '0') then none
  else
    match places.splitOn '.' with
    | [whole] => (groupSize? whole).map fun grouping => ⟨whole.count '0', 0, 0, grouping⟩
    | [whole, fraction] =>
      if ',' ∈ fraction then none
      else
        (groupSize? whole).map fun grouping =>
          ⟨whole.count '0', fraction.count '0', fraction.length, grouping⟩
    | _ => none

/-- Read a decimal pattern. -/
def parse? (pattern : Text) : Option DecimalPattern := do
  let scan ← Scan.run false Scan.start (pattern.takeWhile (· != ';'))
  let layout ← layoutOf? scan.places
  return ⟨scan.before, scan.after, layout, scan.factor⟩

/-- A group size is not zero. -/
theorem groupSize?_pos {whole : Text} {n : Nat} (h : groupSize? whole = some (some n)) : 0 < n := by
  unfold groupSize? at h
  split at h
  · simp only [] at h
    split at h
    · simp at h
    · rename_i hn
      simp only [Option.some.injEq] at h
      omega
  · simp at h

/-- The groups of an accepted pattern are not empty. -/
theorem grouping_pos {pattern : Text} {p : DecimalPattern} {n : Nat} (h : parse? pattern = some p)
    (hn : p.layout.grouping = some n) : 0 < n := by
  simp only [parse?, bind, Option.bind_eq_some_iff, pure, Option.some.injEq] at h
  obtain ⟨scan, _, layout, hl, rfl⟩ := h
  simp only [layoutOf?] at hl
  split at hl
  · simp at hl
  · split at hl
    · obtain ⟨g, hg, rfl⟩ := Option.map_eq_some_iff.1 hl
      exact groupSize?_pos (hg.trans (congrArg some hn))
    · split at hl
      · simp at hl
      · obtain ⟨g, hg, rfl⟩ := Option.map_eq_some_iff.1 hl
        exact groupSize?_pos (hg.trans (congrArg some hn))
    · simp at hl

end DecimalPattern

end MessageCatalog
