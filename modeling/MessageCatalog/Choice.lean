import MessageCatalog.Message.Error
import MessageCatalog.Number.Basic

/-!
# Choice patterns

A choice pattern such as `0#no files|1#one file|1<{0} files` lists alternatives with ascending
limits. `#` and `≤` admit numbers from the limit on, `<` those above it. A bar inside quotes or
inner braces does not divide alternatives.

## Main statements

* `join_splitBars` : the parts between bars, joined again, are the pattern
* `length_alternative_lt` : the text of an alternative is shorter than the pattern
* `length_select_lt` : so is the selected text
-/

namespace MessageCatalog

open Text

/-- An alternative of a choice: it admits numbers from its limit on, or above it when strict. -/
structure Alternative where
  limit : Float
  strict : Bool
  text : Text
  deriving DecidableEq

/-- A choice: its alternatives, in the order of their limits. -/
structure Choice where
  alternatives : List Alternative
  deriving DecidableEq

namespace Choice

/-! ## Section 1: Dividing a pattern -/

/-- The parts of a pattern between the bars outside quotes and inner braces. -/
def splitBars : (quoted : Bool) → (depth : Nat) → Text → List Text
  | _, _, [] => [[]]
  | quoted, depth, c :: cs =>
    if c = '\'' then consFirst c (splitBars (!quoted) depth cs)
    else if quoted then consFirst c (splitBars quoted depth cs)
    else if c = '{' then consFirst c (splitBars quoted (depth + 1) cs)
    -- a closing brace too many closes nothing
    else if c = '}' then consFirst c (splitBars quoted (depth - 1) cs)
    else if c = '|' ∧ depth = 0 then [] :: splitBars quoted depth cs
    else consFirst c (splitBars quoted depth cs)

/-- There is always a first part. -/
theorem splitBars_ne_nil (quoted : Bool) (depth : Nat) (t : Text) : splitBars quoted depth t ≠ [] := by
  cases t with
  | nil => simp [splitBars]
  | cons c cs =>
    have hcons : ∀ parts, consFirst c parts ≠ [] := fun parts => by
      cases parts <;> simp [consFirst]
    unfold splitBars
    (repeat' split) <;> first | exact hcons _ | simp

/-- Joining after a character was put in front. -/
theorem join_consFirst {c : Char} {parts : List Text} (h : parts ≠ []) :
    join ['|'] (consFirst c parts) = c :: join ['|'] parts := by
  match parts, h with
  | [part], _ => simp [consFirst, join, List.intercalate]
  | part :: next :: rest, _ => simp [consFirst, join, List.intercalate]

/-- The parts between bars, joined again, are the pattern. -/
theorem join_splitBars (quoted : Bool) (depth : Nat) (t : Text) :
    join ['|'] (splitBars quoted depth t) = t := by
  induction t generalizing quoted depth with
  | nil => simp [splitBars, join, List.intercalate]
  | cons c cs ih =>
    have hcons : ∀ q d, join ['|'] (consFirst c (splitBars q d cs)) = c :: cs := fun q d => by
      rw [join_consFirst (splitBars_ne_nil q d cs), ih q d]
    unfold splitBars
    repeat' split
    all_goals try exact hcons _ _
    rename_i hb
    have hne := splitBars_ne_nil quoted depth cs
    have := ih quoted depth
    match hs : splitBars quoted depth cs, hne with
    | part :: rest, _ =>
      rw [hs] at this
      simp only [join, List.intercalate] at this ⊢
      simp [hb.1, this]

/-- A part is no longer than the pattern. -/
theorem length_le_of_mem_splitBars {quoted : Bool} {depth : Nat} {t part : Text}
    (h : part ∈ splitBars quoted depth t) : part.length ≤ t.length := by
  induction t generalizing quoted depth part with
  | nil =>
    obtain rfl : part = [] := by simpa [splitBars] using h
    simp
  | cons c cs ih =>
    have hcons : ∀ q d, part ∈ consFirst c (splitBars q d cs) → part.length ≤ (c :: cs).length := by
      intro q d hm
      match hs : splitBars q d cs, splitBars_ne_nil q d cs with
      | first :: rest, _ =>
        rw [hs] at hm
        rcases List.mem_cons.1 (by simpa only [consFirst] using hm) with rfl | hm
        · have hmem : first ∈ splitBars q d cs := hs ▸ List.mem_cons_self
          simpa using ih hmem
        · have hmem : part ∈ splitBars q d cs := hs ▸ List.mem_cons_of_mem _ hm
          have := ih hmem
          simp only [List.length_cons]
          omega
    unfold splitBars at h
    repeat' split at h
    all_goals try exact hcons _ _ h
    rcases List.mem_cons.1 h with rfl | h
    · simp
    · have := ih h
      simp only [List.length_cons]
      omega

/-! ## Section 2: Reading alternatives -/

/-- The characters between limit and text of an alternative. -/
def isRelation (c : Char) : Bool := c == '#' || c == '<' || c == '≤'

/-- Read a limit: a decimal, or infinity; not a number is no limit. -/
def readLimit? (t : Text) : Option Float :=
  if t = ['∞'] ∨ t = ['+', '∞'] then some infinity
  else if t = ['-', '∞'] then some (-infinity)
  else (readDouble? t).filter fun x => !x.isNaN

/-- Read one alternative. -/
def readAlternative? (part : Text) : Option Alternative :=
  match part.dropWhile fun c => !isRelation c with
  | [] => none
  | relation :: text =>
    (readLimit? (trim (part.takeWhile fun c => !isRelation c))).map fun limit =>
      ⟨limit, relation == '<', text⟩

/-- Whether an alternative may follow another: its limit is higher, or the same one excluded after
it was admitted. -/
def follows (previous next : Alternative) : Bool :=
  previous.limit < next.limit ||
    (next.limit == previous.limit && next.strict && !previous.strict)

/-- Read alternatives in turn, each of which must follow the one before. -/
def readFrom? (previous : Option Alternative) : List Text → Option (List Alternative)
  | [] => some []
  | part :: rest => do
    let next ← readAlternative? part
    if previous.all (follows · next) then
      let others ← readFrom? (some next) rest
      return next :: others
    else none

/-- Read a choice pattern. -/
def parse? (pattern : Text) : Option Choice :=
  (readFrom? none (splitBars false 0 pattern)).map Choice.mk

/-- Read a choice pattern, naming it when it is malformed. -/
def parse (pattern : Text) : Except FormatError Choice :=
  match parse? pattern with
  | some choice => .ok choice
  | none => .error (.choicePattern pattern)

/-! ## Section 3: Selecting -/

/-- Whether an alternative admits a number. -/
def admits (a : Alternative) (x : Float) : Bool :=
  if a.strict then a.limit < x else a.limit ≤ x

/-- The last alternative before the first one that does not admit the number. -/
def selectFrom (selected : Alternative) (x : Float) : List Alternative → Alternative
  | [] => selected
  | a :: rest => if admits a x then selectFrom a x rest else selected

/-- The text for a number: that of the last alternative reached, or of the first one when none
admits the number. -/
def select (choice : Choice) (x : Float) : Text :=
  match choice.alternatives with
  | [] => []
  | first :: rest => if admits first x then (selectFrom first x rest).text else first.text

/-! ## Section 4: Lengths -/

/-- The text of an alternative is shorter than the part it was read from. -/
theorem length_text_lt {part : Text} {a : Alternative} (h : readAlternative? part = some a) :
    a.text.length < part.length := by
  unfold readAlternative? at h
  split at h
  · simp at h
  · rename_i relation text hd
    obtain ⟨limit, _, rfl⟩ := Option.map_eq_some_iff.1 h
    have hsuffix : part.dropWhile (fun c => !isRelation c) <:+ part := List.dropWhile_suffix _
    have := hsuffix.length_le
    simp only [hd, List.length_cons] at this
    simp only
    omega

/-- Alternatives come from the parts. -/
theorem exists_part {previous : Option Alternative} {parts : List Text} {as : List Alternative}
    {a : Alternative} (h : readFrom? previous parts = some as) (ha : a ∈ as) :
    ∃ part ∈ parts, readAlternative? part = some a := by
  induction parts generalizing previous as with
  | nil =>
    obtain rfl : [] = as := by simpa [readFrom?] using h
    simp at ha
  | cons part rest ih =>
    simp only [readFrom?, bind, Option.bind_eq_some_iff] at h
    obtain ⟨next, hn, h⟩ := h
    split at h
    · obtain ⟨others, ho, h⟩ := Option.bind_eq_some_iff.1 h
      obtain rfl : next :: others = as := by simpa [pure] using h
      rcases List.mem_cons.1 ha with rfl | ha
      · exact ⟨part, List.mem_cons_self, hn⟩
      · obtain ⟨p, hp, h⟩ := ih ho ha
        exact ⟨p, List.mem_cons_of_mem _ hp, h⟩
    · simp at h

/-- The text of an alternative is shorter than the pattern. -/
theorem length_alternative_lt {pattern : Text} {choice : Choice} {a : Alternative}
    (h : parse? pattern = some choice) (ha : a ∈ choice.alternatives) :
    a.text.length < pattern.length := by
  obtain ⟨as, hr, rfl⟩ := Option.map_eq_some_iff.1 h
  obtain ⟨part, hp, h⟩ := exists_part hr ha
  exact Nat.lt_of_lt_of_le (length_text_lt h) (length_le_of_mem_splitBars hp)

/-- A choice has at least one alternative. -/
theorem alternatives_ne_nil {pattern : Text} {choice : Choice} (h : parse? pattern = some choice) :
    choice.alternatives ≠ [] := by
  obtain ⟨as, hr, rfl⟩ := Option.map_eq_some_iff.1 h
  match hs : splitBars false 0 pattern, splitBars_ne_nil false 0 pattern with
  | part :: rest, _ =>
    rw [hs] at hr
    simp only [readFrom?, bind, Option.bind_eq_some_iff] at hr
    obtain ⟨next, _, hr⟩ := hr
    split at hr
    · obtain ⟨others, _, hr⟩ := Option.bind_eq_some_iff.1 hr
      obtain rfl : next :: others = as := by simpa [pure] using hr
      simp
    · simp at hr

/-- The alternative reached is one of those walked over. -/
theorem selectFrom_mem (selected : Alternative) (x : Float) (as : List Alternative) :
    selectFrom selected x as ∈ selected :: as := by
  induction as generalizing selected with
  | nil => simp [selectFrom]
  | cons a rest ih =>
    unfold selectFrom
    split
    · exact List.mem_cons_of_mem _ (ih a)
    · exact List.mem_cons_self

/-- The selected text is that of an alternative. -/
theorem exists_select {choice : Choice} (h : choice.alternatives ≠ []) (x : Float) :
    ∃ a ∈ choice.alternatives, choice.select x = a.text := by
  match hc : choice.alternatives, h with
  | first :: rest, _ =>
    by_cases hf : admits first x = true
    · exact ⟨selectFrom first x rest, selectFrom_mem first x rest, by simp [select, hc, hf]⟩
    · exact ⟨first, List.mem_cons_self, by simp [select, hc, hf]⟩

/-- The selected text is shorter than the pattern. -/
theorem length_select_lt {pattern : Text} {choice : Choice} (h : parse? pattern = some choice)
    (x : Float) : (choice.select x).length < pattern.length := by
  obtain ⟨a, ha, hs⟩ := exists_select (alternatives_ne_nil h) x
  rw [hs]
  exact length_alternative_lt h ha

/-- Reading with a named failure succeeds on the same patterns. -/
theorem parse?_of_parse {pattern : Text} {choice : Choice} (h : parse pattern = .ok choice) :
    parse? pattern = some choice := by
  unfold parse at h
  split at h
  · obtain rfl := Except.ok.inj h
    assumption
  · simp at h

end Choice

end MessageCatalog
