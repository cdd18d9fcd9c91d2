import MessageCatalog.Text.Basic

/-!
# Lines

The lines of a text. A line ends with a line feed, or with a carriage return and a line feed; a text
that ends with such an end has no further line after it.

## Main statements

* `lines_append` : a line without a line feed and its end are the first line
-/

namespace MessageCatalog.Text

/-- The lines of a text. -/
def lines : Text → List Text
  | [] => []
  | '\n' :: cs => [] :: lines cs
  | '\r' :: '\n' :: cs => [] :: lines cs
  | c :: cs => consFirst c (lines cs)

/-- A character that neither ends a line nor begins its end goes to the first line. -/
theorem lines_cons {c : Char} (cs : Text) (hn : c ≠ '\n') (hr : c ≠ '\r') :
    lines (c :: cs) = consFirst c (lines cs) := by
  rw [lines.eq_def]
  split
  · simp at *
  · simp_all
  · simp_all
  · simp_all

/-- A line without line feeds and carriage returns is the first one of a text that continues it with
a line feed. -/
theorem lines_append {line : Text} (rest : Text) (hn : '\n' ∉ line) (hr : '\r' ∉ line) :
    lines (line ++ '\n' :: rest) = line :: lines rest := by
  induction line with
  | nil => simp [lines]
  | cons c cs ih =>
    have hc : c ≠ '\n' ∧ c ≠ '\r' :=
      ⟨fun h => hn (h ▸ List.mem_cons_self), fun h => hr (h ▸ List.mem_cons_self)⟩
    rw [List.cons_append, lines_cons _ hc.1 hc.2,
      ih (fun h => hn (List.mem_cons_of_mem _ h)) (fun h => hr (List.mem_cons_of_mem _ h))]
    rfl

end MessageCatalog.Text
