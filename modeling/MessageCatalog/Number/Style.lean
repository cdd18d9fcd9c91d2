import MessageCatalog.Locale.Symbols
import MessageCatalog.Message.Error
import MessageCatalog.Number.Basic
import MessageCatalog.Number.Pattern

/-!
# Number styles

The style of a number placeholder is `integer`, `percent`, `currency` or a decimal pattern. This
module writes numbers in a style and reads them back. Doubles are rounded from their exact value,
a half going to the even neighbour; integers are never rounded.

## Main statements

* `filter_group` : dropping the separators gives the grouped digits back
-/

namespace MessageCatalog

open Text

/-- The style of a number. -/
inductive NumberStyle where
  | standard
  | integer
  | percent
  | currency
  | pattern (p : DecimalPattern)
  deriving DecidableEq, Repr

namespace NumberStyle

/-- Read the style part of a number placeholder. -/
def parse : Option Text → Except FormatError NumberStyle
  | none => .ok .standard
  | some raw =>
    let word := lower (trim raw)
    if word = [] then .ok .standard
    else if word = "integer".toList then .ok .integer
    else if word = "percent".toList then .ok .percent
    else if word = "currency".toList then .ok .currency
    else
      match DecimalPattern.parse? raw with
      | some p => .ok (.pattern p)
      | none => .error (.numberPattern raw)

end NumberStyle

namespace Number

/-! ## Section 1: Digits -/

/-- Put a separator between digits so that every group but the first has `size` digits. -/
def group (size : Nat) (separator : Char) : Text → Text
  | [] => []
  | c :: cs =>
    if cs ≠ [] ∧ cs.length % size = 0 then c :: separator :: group size separator cs
    else c :: group size separator cs

/-- Dropping the separators gives the grouped digits back. -/
theorem filter_group {size : Nat} {separator : Char} {digits : Text} (h : separator ∉ digits) :
    (group size separator digits).filter (· != separator) = digits := by
  induction digits with
  | nil => rfl
  | cons c cs ih =>
    obtain ⟨hc, hcs⟩ := not_or.1 (fun hm => h (List.mem_cons.2 hm))
    have hc' : (c != separator) = true := bne_iff_ne.2 (Ne.symm hc)
    unfold group
    split <;> simp [hc', ih hcs]

/-- Zeros at the end of a fraction are dropped down to `least` digits, and added up to as many. -/
def fitFraction (least : Nat) (fraction : Text) : Text :=
  let required := fraction.take least
  let optional := ((fraction.drop least).reverse.dropWhile (· == '0')).reverse
  (required ++ optional).rightpad least '0'

/-- The whole part: a lone zero is dropped when it is not asked for and a fraction follows. -/
def fitWhole (least : Nat) (whole fraction : Text) : Text :=
  let whole := if least = 0 ∧ whole = ['0'] ∧ fraction ≠ [] then [] else whole
  padZeros least whole

/-- Write whole and fraction digits in a layout. The flag tells whether a minus sign belongs before
them: a number whose written digits are all zero has none. -/
def layOut (negative : Bool) (whole fraction : Text) (layout : Layout) (symbols : Symbols) :
    Bool × Text :=
  let fraction := fitFraction layout.minFraction fraction
  let whole := fitWhole layout.minWhole whole fraction
  -- a number that is rounded to zero has no sign
  let isZero := whole.all (· == '0') && fraction.all (· == '0')
  let grouped := match layout.grouping with
    | some size => group size symbols.grouping whole
    | none => whole
  (negative && !isZero, if fraction = [] then grouped else grouped ++ symbols.decimal :: fraction)

/-- The magnitude of a number in a layout, and whether a minus sign belongs before it. -/
def digits (n : Number) (layout : Layout) (symbols : Symbols) : Bool × Text :=
  match n with
  | int i => layOut (decide (i.toInt < 0)) (numeral i.toInt.natAbs) [] layout symbols
  | float x =>
    if x.isNaN then (false, "NaN".toList)
    else if x.isInf then (decide (x < 0), ['∞'])
    else
      let (whole, fraction) := (magnitude x).fixed layout.maxFraction
      layOut (decide (x < 0)) whole fraction layout symbols

/-- The minus sign, if one is needed. -/
def sign (negative : Bool) : Text := if negative then ['-'] else []

/-! ## Section 2: Writing -/

/-- Write the symbol of the currency for the generic currency sign. -/
def withCurrency (symbols : Symbols) (affix : Text) : Text :=
  replaceChar '¤' symbols.currency.symbol affix

/-- The text of a number in a style. -/
def format (n : Number) (style : NumberStyle) (symbols : Symbols) : Text :=
  match style with
  | .standard =>
    let (negative, body) := n.digits Layout.standard symbols
    sign negative ++ body
  | .integer =>
    let (negative, body) := n.digits Layout.whole symbols
    sign negative ++ body
  | .percent =>
    let (negative, body) := (n.scale 100).digits Layout.whole symbols
    sign negative ++ body ++ symbols.percentSeparator.toList ++ ['%']
  | .currency =>
    let currency := symbols.currency
    let (negative, body) := n.digits (Layout.fixed currency.digits) symbols
    if currency.leads then
      sign negative ++ currency.symbol ++ (if currency.spaced then [noBreakSpace] else []) ++ body
    else sign negative ++ body ++ noBreakSpace :: currency.symbol
  | .pattern p =>
    let (negative, body) := (n.scale p.factor).digits p.layout symbols
    sign negative ++ withCurrency symbols p.before ++ body ++ withCurrency symbols p.after

/-- The text of a number without a style. -/
def formatStandard (n : Number) (symbols : Symbols) : Text := n.format .standard symbols

/-! ## Section 3: Reading -/

/-- Remove what a style puts around the digits: every percent sign, or the first occurrence of each
affix. -/
def stripStyle (style : NumberStyle) (symbols : Symbols) (body : Text) : Text :=
  match style with
  | .standard | .integer => body
  | .percent => body.filter (· != '%')
  | .currency => removeFirst symbols.currency.symbol body
  | .pattern p =>
    let body := if p.before = [] then body else removeFirst (withCurrency symbols p.before) body
    if p.after = [] then body else removeFirst (withCurrency symbols p.after) body

/-- The factor by which a style multiplies. -/
def factorOf : NumberStyle → Int
  | .percent => 100
  | .pattern p => p.factor
  | _ => 1

/-- The characters that may stand among digits without meaning: the grouping character and
spaces that do not break. -/
def isFiller (symbols : Symbols) (c : Char) : Bool :=
  c == symbols.grouping || c == noBreakSpace || c == narrowNoBreakSpace || c == ' '

/-- The number of a row of digits with at most one point. Without a point it is an integer while it
is in range. -/
def ofDigits (negative : Bool) (digits : Text) : Number :=
  let double :=
    let x := ((readDecimal? false digits).map Decimal.nearest).getD notANumber
    float (if negative then -x else x)
  if '.' ∈ digits then double
  else
    let i : Int := value digits
    if i < 2 ^ 63 then int (Int64.ofInt (if negative then -i else i)) else double

/-- A row of digits with at most one point, and at least one digit. -/
def wellFormed (digits : Text) : Bool :=
  digits.any Char.isDigit && digits.all (fun c => c.isDigit || c == '.') && digits.count '.' ≤ 1

/-- Read a number that was written in a style. -/
def parse (text : Text) (style : NumberStyle) (symbols : Symbols) : Except FormatError Number :=
  let body := (stripStyle style symbols (trim text)).filter fun c => !isFiller symbols c
  let (negative, magnitude) := match body with
    | '-' :: rest => (true, rest)
    | _ => (false, body)
  if magnitude = "NaN".toList then .ok (float notANumber)
  else if magnitude = ['∞'] then .ok (float (if negative then -infinity else infinity))
  else
    let digits := magnitude.map fun c => if c = symbols.decimal then '.' else c
    if wellFormed digits then .ok ((ofDigits negative digits).unscale (factorOf style))
    else .error (.unparseable text "not a number")

end Number

end MessageCatalog
