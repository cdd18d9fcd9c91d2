import MessageCatalog.Number.Binary64

/-!
# Numeric arguments

A number is a 64-bit integer or a double. Products that leave the range of 64-bit integers are
taken in doubles.

## Main statements

* `toInt_of_int64?` : an integer in range is kept
* `scale_int` : scaling an integer is exact while the product is in range
-/

namespace MessageCatalog

/-- A numeric argument: an exact 64-bit integer or a double. -/
inductive Number where
  | int (i : Int64)
  | float (x : Float)
  deriving DecidableEq

/-- An integer as a 64-bit integer, if it is in range. -/
def int64? (i : Int) : Option Int64 :=
  if -2 ^ 63 ≤ i ∧ i < 2 ^ 63 then some (Int64.ofInt i) else none

/-- An integer in range is kept, and only such an integer is accepted. -/
theorem toInt_of_int64? {i : Int} {w : Int64} (h : int64? i = some w) : w.toInt = i := by
  unfold int64? at h
  split at h
  · rename_i hr
    obtain rfl := Option.some.inj h
    exact Int64.toInt_ofInt_of_le hr.1 hr.2
  · simp at h

/-- Every 64-bit integer is in range. -/
@[simp]
theorem int64?_toInt (w : Int64) : int64? w.toInt = some w := by
  have h1 := w.le_toInt
  have h2 := w.toInt_lt
  unfold int64?
  rw [if_pos ⟨h1, h2⟩, Int64.ofInt_toInt]

namespace Number

/-- The double nearest to a number. -/
def toFloat : Number → Float
  | int i => Float.ofInt i.toInt
  | float x => x

/-- Two numbers are the same when both are integers or both doubles, and equal as such. No number
is the same as one that is not a number. -/
def same : Number → Number → Bool
  | int i, int j => i == j
  | float x, float y => x == y
  | _, _ => false

/-- A number times a factor. -/
def scale (n : Number) (factor : Int) : Number :=
  match n with
  | int i =>
    match int64? (i.toInt * factor) with
    | some product => int product
    | none => float (Float.ofInt i.toInt * Float.ofInt factor)
  | float x => float (x * Float.ofInt factor)

/-- Scaling an integer is exact while the product is in range. -/
theorem scale_int {i product : Int64} {factor : Int} (h : i.toInt * factor = product.toInt) :
    scale (int i) factor = int product := by
  simp [scale, h]

/-- A number divided by a factor; an integer that the factor divides stays one. -/
def unscale (n : Number) (factor : Int) : Number :=
  if factor = 1 then n
  else
    match n with
    | int i =>
      if i.toInt % factor = 0 then int (Int64.ofInt (i.toInt / factor))
      else float (Float.ofInt i.toInt / Float.ofInt factor)
    | float x => float (x / Float.ofInt factor)

/-- The number of an integer of any size: a double when it is out of range. -/
def ofInt (i : Int) : Number :=
  match int64? i with
  | some w => int w
  | none => float (Float.ofInt i)

end Number

end MessageCatalog
