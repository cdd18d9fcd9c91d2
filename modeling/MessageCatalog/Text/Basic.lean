/-!
# Text

Every document, key, template and pattern of the library is a list of characters, so that its
readers recurse on the data. This module holds the few operations on such lists that several
readers share: blanks, prefixes, occurrences, and decimal digits.

## Main statements

* `stripPrefix?_eq_some_iff` : a prefix is stripped exactly when the text starts with it
* `breakAt?_eq_some` : a break at a needle keeps the whole text, and the needle starts its tail
* `numeral_value` : the decimal digits of a number have that number as their value
-/

namespace MessageCatalog

/-- A mapped reading succeeds exactly when the reading does. -/
theorem map_eq_ok_iff {ε α β : Type} {x : Except ε α} {f : α → β} {b : β} :
    x.map f = .ok b ↔ ∃ a, x = .ok a ∧ f a = b := by
  cases x <;> simp [Except.map]

/-- A mapped reading fails exactly when the reading does, for the same reason. -/
theorem map_eq_error_iff {ε α β : Type} {x : Except ε α} {f : α → β} {e : ε} :
    x.map f = .error e ↔ x = .error e := by
  cases x <;> simp [Except.map]

/-- Two readings in turn succeed exactly when the first one does, and the second one on its result. -/
theorem bind_eq_ok_iff {ε α β : Type} {x : Except ε α} {f : α → Except ε β} {b : β} :
    x >>= f = .ok b ↔ ∃ a, x = .ok a ∧ f a = .ok b := by
  cases x <;> simp [bind, Except.bind]

/-- A text is the list of its characters. -/
abbrev Text := List Char

instance : LawfulBEq Text := inferInstance

-- Powers and sums are those of the core library, whatever else a module imports.
attribute [default_instance 20000] instPowNat
attribute [instance (1100)] instPowNat Zero.ofOfNat0

namespace Text

/-- A text as a string, for messages. -/
def str (t : Text) : String := String.ofList t

/-! ## Section 1: Blanks -/

/-- The characters with the property `White_Space`. -/
def isBlank (c : Char) : Bool :=
  let n := c.toNat
  (9 ≤ n && n ≤ 13) || n == 32 || n == 133 || n == 160 || n == 0x1680 ||
    (0x2000 ≤ n && n ≤ 0x200A) || n == 0x2028 || n == 0x2029 || n == 0x202F ||
    n == 0x205F || n == 0x3000

/-- Drop the blanks at the start. -/
def trimLeft (t : Text) : Text := t.dropWhile isBlank

/-- Drop the blanks at the end. -/
def trimRight (t : Text) : Text := (t.reverse.dropWhile isBlank).reverse

/-- Drop the blanks at both ends. -/
def trim (t : Text) : Text := trimRight (trimLeft t)

/-- A text that holds nothing but blanks. -/
def blank (t : Text) : Bool := t.all isBlank

/-! ## Section 2: Letters -/

/-- The letters `A` to `Z` become small; every other character stays. -/
def lower (t : Text) : Text := t.map Char.toLower

/-- An ASCII letter. -/
def isLetter (c : Char) : Bool := c.isAlpha

/-! ## Section 3: Prefixes, suffixes and occurrences -/

/-- The rest of a text after a prefix, if it starts with that prefix. -/
def stripPrefix? : (head t : Text) → Option Text
  | [], t => some t
  | _ :: _, [] => none
  | p :: ps, c :: cs => if p = c then stripPrefix? ps cs else none

/-- The part of a text before a suffix, if it ends with that suffix. -/
def stripSuffix? (tail t : Text) : Option Text :=
  (stripPrefix? tail.reverse t.reverse).map List.reverse

/-- A prefix is stripped exactly when the text starts with it. -/
theorem stripPrefix?_eq_some_iff {head t r : Text} :
    stripPrefix? head t = some r ↔ t = head ++ r := by
  induction head generalizing t with
  | nil => simp [stripPrefix?]
  | cons p ps ih =>
    cases t with
    | nil => simp [stripPrefix?]
    | cons c cs =>
      by_cases h : p = c
      · subst h
        simp [stripPrefix?, ih]
      · simp [stripPrefix?, h, Ne.symm h]

/-- A suffix is stripped exactly when the text ends with it. -/
theorem stripSuffix?_eq_some_iff {tail t r : Text} :
    stripSuffix? tail t = some r ↔ t = r ++ tail := by
  simp only [stripSuffix?, Option.map_eq_some_iff, stripPrefix?_eq_some_iff]
  constructor
  · rintro ⟨a, ha, rfl⟩
    have := congrArg List.reverse ha
    simpa using this
  · rintro rfl
    exact ⟨r.reverse, by simp, by simp⟩

/-- Whether a text starts with `head`. -/
def startsWith (head t : Text) : Bool := (stripPrefix? head t).isSome

/-- Whether a text ends with `tail`. -/
def endsWith (tail t : Text) : Bool := (stripSuffix? tail t).isSome

/-- Break a text at the leftmost occurrence of `needle`: what stands before it, and the rest from
the needle on. -/
def breakAt? (needle : Text) : Text → Option (Text × Text)
  | [] => if needle = [] then some ([], []) else none
  | c :: cs =>
    if startsWith needle (c :: cs) then some ([], c :: cs)
    else (breakAt? needle cs).map fun (before, rest) => (c :: before, rest)

/-- A break loses nothing, and its second part starts with the needle. -/
theorem breakAt?_eq_some {needle t before rest : Text} (h : breakAt? needle t = some (before, rest)) :
    t = before ++ rest ∧ startsWith needle rest = true := by
  induction t generalizing before with
  | nil =>
    by_cases hn : needle = []
    · subst hn
      obtain ⟨rfl, rfl⟩ : before = [] ∧ rest = [] := by simpa [breakAt?, eq_comm] using h
      exact ⟨rfl, rfl⟩
    · simp [breakAt?, hn] at h
  | cons c cs ih =>
    by_cases hs : startsWith needle (c :: cs) = true
    · obtain ⟨rfl, rfl⟩ : before = [] ∧ rest = c :: cs := by simpa [breakAt?, hs, eq_comm] using h
      exact ⟨rfl, hs⟩
    · obtain ⟨⟨b, r⟩, hb, he⟩ : ∃ p, breakAt? needle cs = some p ∧ (c :: p.1, p.2) = (before, rest) := by
        simpa [breakAt?, hs] using h
      obtain ⟨rfl, rfl⟩ : c :: b = before ∧ r = rest := by simpa using he
      have := ih hb
      exact ⟨by simp [this.1], this.2⟩

/-- Remove the leftmost occurrence of `needle`, if there is one. -/
def removeFirst (needle t : Text) : Text :=
  match breakAt? needle t with
  | some (before, rest) => before ++ rest.drop needle.length
  | none => t

/-- Write `image` for every occurrence of the character `c`. -/
def replaceChar (c : Char) (image t : Text) : Text :=
  t.flatMap fun d => if d = c then image else [d]

/-- Put one character in front of the first of some parts; it makes a part of its own when there is
none. -/
def consFirst (c : Char) : List Text → List Text
  | [] => [[c]]
  | part :: rest => (c :: part) :: rest

/-! ## Section 4: Decimal digits -/

/-- The decimal digits of a natural number, without leading zeros. -/
def numeral (n : Nat) : Text := Nat.toDigits 10 n

/-- The number that a row of decimal digits denotes. -/
def value (digits : Text) : Nat := Nat.ofDigitChars 10 digits 0

/-- A non-empty row of decimal digits. -/
def isNumeral (t : Text) : Bool := !t.isEmpty && t.all Char.isDigit

/-- The digits of a number have that number as their value. -/
@[simp]
theorem numeral_value (n : Nat) : value (numeral n) = n :=
  Nat.ofDigitChars_ten_toDigits

/-- The decimal form of an integer: a minus sign before the digits of a negative one. -/
def integer (i : Int) : Text :=
  if i < 0 then '-' :: numeral i.natAbs else numeral i.natAbs

/-- Put zeros in front until the text has at least `width` characters. -/
def padZeros (width : Nat) (t : Text) : Text := t.leftpad width '0'

/-- The decimal form of an integer, with zeros between sign and digits up to `width` characters,
the sign counted. -/
def paddedInteger (width : Nat) (i : Int) : Text :=
  if i < 0 then '-' :: padZeros (width - 1) (numeral i.natAbs) else padZeros width (numeral i.natAbs)

/-! ## Section 5: Joining -/

/-- The parts in order, with `separator` between neighbours. -/
def join (separator : Text) (parts : List Text) : Text := separator.intercalate parts

/-- The order of texts: character by character, and a proper prefix first. -/
def before (a b : Text) : Bool := decide (a < b)

/-- A text is at or before another one. -/
def atMost (a b : Text) : Bool := !before b a

end Text

end MessageCatalog
