import MessageCatalog.Message.Format

/-!
# Reading messages back

A formatted message is read along the segments of its template. Literals must stand in the text;
a placeholder takes what stands before the next literal, which is looked for from the left, except
that the closing literal of the template is the end of the text. An index that is read twice must
give the same value both times. A choice tries its alternatives in turn.

## Main statements

* `read_of_parse` : a text is read along the segments of the template
-/

namespace MessageCatalog.Message

open Text

/-- What reading depends on besides the texts: the locale, and the year that two-digit years lie
around. -/
structure Setting where
  tag : LocaleTag
  currentYear : Int
  deriving DecidableEq, Repr

/-! ## Section 1: Values -/

/-- Store a value that was read; `text` is named when it contradicts an earlier one. -/
def store (text : Text) (args : List Argument) (index : Nat) (value : Argument) :
    Except FormatError (List Argument) :=
  match Argument.store? args index value with
  | some args => .ok args
  | none => .error (.unparseable text s!"argument {index} reads as two different values")

/-- The number that stands for the limit of an alternative: an integer when it is one and small
enough to be exact. -/
def limitNumber (limit : Float) : Number :=
  match integral? limit with
  | some i => if i.natAbs < 2 ^ 53 then .int (Int64.ofInt i) else .float limit
  | none => .float limit

/-- Take the values read from an alternative into the arguments; a number at the choice's own index
is kept apart as the value of the choice. -/
def mergeAlternative (text : Text) (index : Nat) :
    (position : Nat) → (value : Argument) → (read args : List Argument) →
      Except FormatError (Argument × List Argument)
  | _, value, [], args => .ok (value, args)
  | position, value, arg :: rest, args =>
    match arg with
    | .missing => mergeAlternative text index (position + 1) value rest args
    | .number n =>
      if position = index then mergeAlternative text index (position + 1) (.number n) rest args
      else do
        let args ← store text args position arg
        mergeAlternative text index (position + 1) value rest args
    | _ => do
      let args ← store text args position arg
      mergeAlternative text index (position + 1) value rest args

/-- Read a text by the first alternative that it follows. The value read at the choice's own index
counts; without one the limit of the alternative does. -/
def readChoice (text captured : Text) (index bound : Nat)
    (nested : (template : Text) → template.length < bound → (text : Text) →
      Except FormatError (List Argument))
    (args : List Argument) :
    (alternatives : List Alternative) → (∀ a ∈ alternatives, a.text.length < bound) →
      Except FormatError (List Argument)
  | [], _ =>
    .error (.unparseable text s!"'{captured.str}' matches no choice of argument {index}")
  | a :: rest, h =>
    match nested a.text (h a List.mem_cons_self) captured with
    | .error _ =>
      readChoice text captured index bound nested args rest fun b hb =>
        h b (List.mem_cons_of_mem _ hb)
    -- the first alternative that fits is the one, even if its values contradict earlier ones
    | .ok read => do
      let (value, args) ← mergeAlternative text index 0 (.number (limitNumber a.limit)) read args
      store text args index value

/-- Read the text that a placeholder takes. `nested` reads along the text of an alternative, and is
only asked for texts shorter than `bound`. -/
def readPlaceholder (setting : Setting) (text : Text) (bound : Nat)
    (nested : (template : Text) → template.length < bound → (text : Text) →
      Except FormatError (List Argument))
    (p : Placeholder) (hp : (choicePattern p).length ≤ bound) (captured : Text)
    (args : List Argument) : Except FormatError (List Argument) :=
  match p.format with
  | none => store text args p.index (.text captured)
  | some ⟨.number, style⟩ => do
    let style ← NumberStyle.parse style
    let n ← Number.parse captured style (Symbols.ofLocale setting.tag)
    store text args p.index (.number n)
  | some ⟨.date, style⟩ => do
    let d ← DateTime.read setting.currentYear .date (DateStyle.parse style) setting.tag captured
    store text args p.index (.date d)
  | some ⟨.time, style⟩ => do
    let d ← DateTime.read setting.currentYear .time (DateStyle.parse style) setting.tag captured
    store text args p.index (.date d)
  | some ⟨.choice, _⟩ =>
    match hc : Choice.parse (choicePattern p) with
    | .error e => .error e
    | .ok choice =>
      readChoice text captured p.index bound nested args choice.alternatives fun _ ha =>
        Nat.lt_of_lt_of_le (Choice.length_alternative_lt (Choice.parse?_of_parse hc) ha) hp

/-! ## Section 2: Segments -/

/-- The text does not hold a literal that it should. -/
def expected (text literal : Text) : FormatError :=
  .unparseable text s!"expected '{literal.str}'"

/-- What a placeholder takes of the rest of a text, given the segments after it, and what is left. -/
def capture (text : Text) (p : Placeholder) (rest : Text) :
    List Segment → Except FormatError (Text × Text)
  | [] => .ok (rest, [])
  -- the closing literal is the end of the text, even where it occurs before
  | [.literal last] =>
    match stripSuffix? last rest with
    | some captured => .ok (captured, last)
    | none => .error (expected text last)
  | .literal next :: _ =>
    match breakAt? next rest with
    | some (captured, rest) => .ok (captured, rest)
    | none => .error (expected text next)
  | .placeholder next :: _ =>
    .error (.unparseable text
      s!"arguments {p.index} and {next.index} are not separated by text")

/-- Read the rest of a text along some segments. -/
def readSegments (setting : Setting) (text : Text) (bound : Nat)
    (nested : (template : Text) → template.length < bound → (text : Text) →
      Except FormatError (List Argument)) :
    (segments : List Segment) →
      (∀ p ∈ Segment.placeholders segments, (choicePattern p).length ≤ bound) →
      (rest : Text) → (args : List Argument) → Except FormatError (List Argument)
  | [], _, rest, args =>
    if rest = [] then .ok args
    else .error (.unparseable text s!"unexpected trailing text '{rest.str}'")
  | .literal t :: segments, h, rest, args =>
    match stripPrefix? t rest with
    | some rest =>
      readSegments setting text bound nested segments (bound_of_literal h) rest args
    | none => .error (expected text t)
  | .placeholder p :: segments, h, rest, args => do
    let (captured, rest) ← capture text p rest segments
    let args ← readPlaceholder setting text bound nested p (bound_of_placeholder h) captured args
    readSegments setting text bound nested segments (bound_of_tail h) rest args

/-- Read a text along a template; gives the arguments by index. -/
def read (setting : Setting) (template text : Text) : Except FormatError (List Argument) :=
  match hp : Template.parse template with
  | .error e => .error (.template e)
  | .ok t =>
    readSegments setting text template.length (fun inner _ text => read setting inner text)
      t.segments (fun _ h => length_choicePattern_le hp h) text []
termination_by template.length

/-- A text is read along the segments of the template. -/
theorem read_of_parse {setting : Setting} {template text : Text} {t : Template}
    (h : Template.parse template = .ok t) :
    read setting template text =
      readSegments setting text template.length (fun inner _ text => read setting inner text)
        t.segments (fun _ hp => length_choicePattern_le h hp) text [] := by
  rw [read]
  split
  · rename_i e he
    simp [h] at he
  · rename_i t' ht
    obtain rfl : t' = t := by simpa [h] using ht.symm
    rfl

end MessageCatalog.Message
