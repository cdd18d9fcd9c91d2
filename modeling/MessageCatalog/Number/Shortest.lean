import MessageCatalog.Number.Binary64

/-!
# Shortest decimals of doubles

The fewest decimal digits that are read as a given double, and of several such decimals the one
nearest to it, written without an exponent.
-/

namespace MessageCatalog

open Text

namespace Dyadic

/-- A magnitude as a quotient of natural numbers. -/
def quotient (d : Dyadic) : Nat × Nat :=
  if 0 ≤ d.exponent then (d.significand * 2 ^ d.exponent.toNat, 1)
  else (d.significand, 2 ^ (-d.exponent).toNat)

/-- The number of digits before the decimal point; it is negative when zeros follow the point. -/
def order (d : Dyadic) : Int :=
  let (num, den) := d.quotient
  (numeral (num * 10 ^ 400 / den)).length - 400

end Dyadic

/-- Whether a decimal is read as a double. -/
def Decimal.reads (d : Decimal) (x : Float) : Bool := d.nearest.toBits == x.toBits

/-- The decimal with `count` digits that is read as a magnitude, if there is one: one of its two
neighbours, the nearer one when both are. -/
def digitsAt? (x : Float) (count : Nat) : Option Decimal :=
  let m := magnitude x
  let (num, den) := m.quotient
  let places := count - m.order
  let num := num * 10 ^ places.toNat
  let den := den * 10 ^ (-places).toNat
  let below : Decimal := ⟨false, num / den, -places⟩
  let above : Decimal := ⟨false, num / den + 1, -places⟩
  let candidates := if 2 * (num % den) ≤ den then [below, above] else [above, below]
  candidates.find? fun d => d.reads x

/-- The shortest decimal that is read as a positive double. Seventeen digits are enough for any. -/
def shortest (x : Float) : Decimal :=
  ((List.range 17).findSome? fun n => digitsAt? x (n + 1)).getD ⟨false, 0, 0⟩

/-- A decimal without an exponent: zeros after its digits, or a point among them or before them. -/
def Decimal.positional (d : Decimal) : Text :=
  let digits := numeral d.significand
  if 0 ≤ d.exponent then digits ++ List.replicate d.exponent.toNat '0'
  else
    let places := (-d.exponent).toNat
    let digits := padZeros (places + 1) digits
    let whole := digits.take (digits.length - places)
    let fraction := ((digits.drop (digits.length - places)).reverse.dropWhile (· == '0')).reverse
    if fraction = [] then whole else whole ++ '.' :: fraction

/-- The text of a double. -/
def floatText (x : Float) : Text :=
  if x.isNaN then "NaN".toList
  else
    let sign : Text := if x.toBits.toNat < 2 ^ 63 then [] else ['-']
    if x.isInf then sign ++ "inf".toList
    else if x == 0.0 then sign ++ ['0']
    else sign ++ (shortest x.abs).positional

end MessageCatalog
