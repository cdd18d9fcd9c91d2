import MessageCatalog.Calendar.Style
import MessageCatalog.Choice
import MessageCatalog.Message.Argument
import MessageCatalog.Number.Style
import MessageCatalog.Template.Parser

/-!
# Formatting messages

The text of a message is the text of its segments: literals as they are, placeholders as their
arguments in the manner of the locale. A missing argument leaves `{n}`. The text that a choice
selects is formatted as a template of its own; it is shorter than the template around it, which is
what the recursion goes by.

## Main statements

* `format_of_parse` : a message is the text of the segments of its template
-/

namespace MessageCatalog.Message

open Text

/-! ## Section 1: One placeholder -/

/-- What stands for a missing argument. -/
def hole (index : Nat) : Text := '{' :: numeral index ++ ['}']

/-- The kind of argument does not fit the placeholder. -/
def mismatch (p : Placeholder) (expected : String) (arg : Argument) : FormatError :=
  .argumentKind p.index expected arg.kind

/-- What is written for an argument without a type. -/
def formatUntyped (tag : LocaleTag) (p : Placeholder) : Argument → Except FormatError Text
  | .text t => .ok t
  | .number n => .ok (n.formatStandard (Symbols.ofLocale tag))
  | .date d => d.formatShort tag
  | .missing => .ok (hole p.index)

/-- The subpattern of a choice placeholder. -/
def choicePattern (p : Placeholder) : Text := p.style.getD []

/-- What is written for a present argument. `nested` formats the text that a choice selects, and is
only asked for texts shorter than `bound`. -/
def formatArgument (tag : LocaleTag) (bound : Nat)
    (nested : (template : Text) → template.length < bound → Except FormatError Text)
    (p : Placeholder) (hp : (choicePattern p).length ≤ bound) (arg : Argument) :
    Except FormatError Text :=
  match p.format with
  | none => formatUntyped tag p arg
  | some ⟨.number, style⟩ =>
    match arg with
    | .number n => (NumberStyle.parse style).map (n.format · (Symbols.ofLocale tag))
    | _ => .error (mismatch p "number" arg)
  | some ⟨.date, style⟩ =>
    match arg with
    | .date d => d.format .date (DateStyle.parse style) tag
    | _ => .error (mismatch p "date" arg)
  | some ⟨.time, style⟩ =>
    match arg with
    | .date d => d.format .time (DateStyle.parse style) tag
    | _ => .error (mismatch p "date" arg)
  | some ⟨.choice, _⟩ =>
    match arg with
    | .number n =>
      match hc : Choice.parse (choicePattern p) with
      | .error e => .error e
      | .ok choice =>
        nested (choice.select n.toFloat)
          (Nat.lt_of_lt_of_le (Choice.length_select_lt (Choice.parse?_of_parse hc) n.toFloat) hp)
    | _ => .error (mismatch p "number" arg)

/-- What is written for a placeholder. -/
def formatPlaceholder (tag : LocaleTag) (args : List Argument) (bound : Nat)
    (nested : (template : Text) → template.length < bound → Except FormatError Text)
    (p : Placeholder) (hp : (choicePattern p).length ≤ bound) : Except FormatError Text :=
  let arg := Argument.at? args p.index
  if arg.isMissing then .ok (hole p.index) else formatArgument tag bound nested p hp arg

/-! ## Section 2: Templates -/

section

variable {bound : Nat} {t : Text} {p : Placeholder} {rest : List Segment}

theorem bound_of_literal
    (h : ∀ p ∈ Segment.placeholders (.literal t :: rest), (choicePattern p).length ≤ bound) :
    ∀ p ∈ Segment.placeholders rest, (choicePattern p).length ≤ bound := h

theorem bound_of_placeholder
    (h : ∀ q ∈ Segment.placeholders (.placeholder p :: rest), (choicePattern q).length ≤ bound) :
    (choicePattern p).length ≤ bound := h p List.mem_cons_self

theorem bound_of_tail
    (h : ∀ q ∈ Segment.placeholders (.placeholder p :: rest), (choicePattern q).length ≤ bound) :
    ∀ q ∈ Segment.placeholders rest, (choicePattern q).length ≤ bound :=
  fun q hq => h q (List.mem_cons_of_mem p hq)

end

/-- The text of some segments. -/
def formatSegments (tag : LocaleTag) (args : List Argument) (bound : Nat)
    (nested : (template : Text) → template.length < bound → Except FormatError Text) :
    (segments : List Segment) →
      (∀ p ∈ Segment.placeholders segments, (choicePattern p).length ≤ bound) →
      Except FormatError Text
  | [], _ => .ok []
  | .literal t :: rest, h => do
    let others ← formatSegments tag args bound nested rest (bound_of_literal h)
    return t ++ others
  | .placeholder p :: rest, h => do
    let text ← formatPlaceholder tag args bound nested p (bound_of_placeholder h)
    let others ← formatSegments tag args bound nested rest (bound_of_tail h)
    return text ++ others

/-- A subpattern is no longer than the template it stands in. -/
theorem length_choicePattern_le {template : Text} {t : Template} {p : Placeholder}
    (h : Template.parse template = .ok t) (hp : p ∈ Segment.placeholders t.segments) :
    (choicePattern p).length ≤ template.length := by
  unfold choicePattern
  cases hs : p.style with
  | none => simp
  | some style => exact Nat.le_of_lt (Template.length_style_lt h hp hs)

/-- The text of a message for a locale. -/
def format (tag : LocaleTag) (args : List Argument) (template : Text) : Except FormatError Text :=
  match hp : Template.parse template with
  | .error e => .error (.template e)
  | .ok t =>
    formatSegments tag args template.length (fun inner _ => format tag args inner) t.segments
      fun _ h => length_choicePattern_le hp h
termination_by template.length

/-- A message is the text of the segments of its template. -/
theorem format_of_parse {tag : LocaleTag} {args : List Argument} {template : Text} {t : Template}
    (h : Template.parse template = .ok t) :
    format tag args template =
      formatSegments tag args template.length (fun inner _ => format tag args inner) t.segments
        fun _ hp => length_choicePattern_le h hp := by
  rw [format]
  split
  · rename_i e he
    simp [h] at he
  · rename_i t' ht
    obtain rfl : t' = t := by simpa [h] using ht.symm
    rfl

end MessageCatalog.Message
