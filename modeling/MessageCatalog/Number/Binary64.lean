import MessageCatalog.Text.Basic

/-!
# Doubles as exact numbers

A finite double is a significand times a power of two. From that form its value is written with a
fixed number of decimal places, a half going to the even neighbour, and decimal text is read as the
nearest double.
-/

namespace MessageCatalog

open Text

/-! ## Section 1: Rounding quotients -/

/-- The natural number nearest to a quotient; of two equally near ones the even one. -/
def roundHalfEven (num den : Nat) : Nat :=
  let q := num / den
  let r := num % den
  if 2 * r < den then q
  else if den < 2 * r then q + 1
  else q + q % 2

/-! ## Section 2: The exact value of a double -/

/-- A magnitude `significand * 2 ^ exponent`. -/
structure Dyadic where
  significand : Nat
  exponent : Int
  deriving DecidableEq, Repr

namespace Dyadic

/-- The magnitude times `10 ^ places`, rounded to a natural number. -/
def scaled (d : Dyadic) (places : Nat) : Nat :=
  let n := d.significand * 10 ^ places
  if 0 ≤ d.exponent then n * 2 ^ d.exponent.toNat
  else roundHalfEven n (2 ^ (-d.exponent).toNat)

/-- The digits before and after the decimal point, with `places` digits after it. -/
def fixed (d : Dyadic) (places : Nat) : Text × Text :=
  let digits := padZeros (places + 1) (numeral (d.scaled places))
  (digits.take (digits.length - places), digits.drop (digits.length - places))

end Dyadic

/-- The magnitude of a finite double. -/
def magnitude (x : Float) : Dyadic :=
  let bits : Nat := x.toBits.toNat
  let field : Nat := bits / 2 ^ 52 % 2 ^ 11
  let fraction : Nat := bits % 2 ^ 52
  -- the smallest doubles have no leading one
  if field = 0 then ⟨fraction, -1074⟩ else ⟨2 ^ 52 + fraction, (field : Int) - 1075⟩

/-- The integer that a double is exactly, if it is one. -/
def integral? (x : Float) : Option Int :=
  if !x.isFinite then none
  else
    let d := magnitude x
    let sign : Int := if x < 0 then -1 else 1
    if 0 ≤ d.exponent then some (sign * (d.significand * 2 ^ d.exponent.toNat : Nat))
    else
      let den := 2 ^ (-d.exponent).toNat
      if d.significand % den = 0 then some (sign * (d.significand / den : Nat)) else none

/-! ## Section 3: Reading decimals -/

/-- Positive infinity. -/
def infinity : Float := 1.0 / 0.0

/-- Not a number. -/
def notANumber : Float := 0.0 / 0.0

/-- A decimal number `significand * 10 ^ exponent` with its sign. -/
structure Decimal where
  negative : Bool
  significand : Nat
  exponent : Int
  deriving DecidableEq, Repr

namespace Decimal

/-- The magnitude of a decimal, rounded by `nearest` unless its order is beyond every double: then it
is infinite or zero. -/
def roundMagnitude (nearest : (significand : Nat) → (negative : Bool) → (exponent : Nat) → Float)
    (d : Decimal) : Float :=
  if d.significand = 0 then 0.0
  else
    let order := (numeral d.significand).length + d.exponent
    if 310 < order then infinity
    else if order < -330 then 0.0
    else nearest d.significand (decide (d.exponent < 0)) d.exponent.natAbs

/-- The double nearest to a decimal. -/
def nearest (d : Decimal) : Float :=
  let x := d.roundMagnitude Float.ofScientific
  if d.negative then -x else x

/-- The double that a single is, given its word. -/
def ofSingleWord (word : Nat) : Float :=
  let field : Nat := word / 2 ^ 23 % 2 ^ 8
  let fraction : Nat := word % 2 ^ 23
  if field = 255 then if fraction = 0 then infinity else notANumber
  else if field = 0 then Float.ofNat fraction / Float.ofNat (2 ^ 149)
  else Float.ofNat ((2 ^ 23 + fraction) * 2 ^ field) / Float.ofNat (2 ^ 150)

/-- The single nearest to a decimal, as a double. -/
def nearestSingle (d : Decimal) : Float :=
  let x := d.roundMagnitude fun significand negative exponent =>
    ofSingleWord (Float32.ofScientific significand negative exponent).toBits.toNat
  if d.negative then -x else x

end Decimal

/-- Take the digits at the start of a text. -/
def takeDigits (t : Text) : Text × Text := t.span Char.isDigit

/-- Take a sign at the start of a text; the flag tells whether it is a minus sign. -/
def takeSign : Text → Bool × Text
  | '-' :: rest => (true, rest)
  | '+' :: rest => (false, rest)
  | t => (false, t)

/-- Read the exponent part of a decimal: nothing, or `e`, an optional sign and digits. -/
def readExponent? (t : Text) : Option Int :=
  match t with
  | [] => some 0
  | c :: rest =>
    if c = 'e' ∨ c = 'E' then
      let (negative, digits) := takeSign rest
      if isNumeral digits then
        some (if negative then -(value digits : Int) else value digits)
      else none
    else none

/-- Read an unsigned decimal: digits with an optional point among or beside them, and an optional
exponent. At least one digit stands before the exponent. -/
def readDecimal? (negative : Bool) (t : Text) : Option Decimal :=
  let (whole, rest) := takeDigits t
  let (fraction, rest) := match rest with
    | '.' :: rest => takeDigits rest
    | rest => ([], rest)
  if whole = [] ∧ fraction = [] then none
  else
    (readExponent? rest).map fun exponent =>
      ⟨negative, value (whole ++ fraction), exponent - fraction.length⟩

/-- Read a number that is rounded by `nearest`: an optional sign, then a decimal, or `inf`,
`infinity` or `nan` in any case. -/
def readRounded? (nearest : Decimal → Float) (t : Text) : Option Float :=
  let (negative, body) := takeSign t
  let word := lower body
  if word = "inf".toList ∨ word = "infinity".toList then
    some (if negative then -infinity else infinity)
  else if word = "nan".toList then some notANumber
  else (readDecimal? negative body).map nearest

/-- Read a double. -/
def readDouble? (t : Text) : Option Float := readRounded? Decimal.nearest t

/-- Read a single, as a double. -/
def readSingle? (t : Text) : Option Float := readRounded? Decimal.nearestSingle t

end MessageCatalog
