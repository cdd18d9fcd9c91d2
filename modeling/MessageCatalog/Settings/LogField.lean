import MessageCatalog.Number.Shortest
import MessageCatalog.Settings.Expression

/-!
# Fields in log filters

A directive of a log filter may ask for a field, and for its value: a truth value, a number, or a
regular expression that the value matches.
-/

namespace MessageCatalog

open Text

/-- The value that a field must have. Not a number stands apart from the doubles, since it has no
place among them. -/
inductive FieldValue where
  | truth (value : Bool)
  | double (value : Float)
  | notANumber
  | unsigned (value : Nat)
  | signed (value : Int)
  | pattern (expression : Text)

namespace FieldValue

/-- Read a number below `2 ^ 64`. -/
def readUnsigned? (t : Text) : Option Nat :=
  let digits := (stripPrefix? ['+'] t).getD t
  if isNumeral digits ∧ value digits < 2 ^ 64 then some (value digits) else none

/-- Read a signed 64-bit integer. -/
def readSigned? (t : Text) : Option Int :=
  let (negative, digits) := takeSign t
  let n : Int := if negative then -(value digits : Int) else value digits
  if isNumeral digits ∧ -2 ^ 63 ≤ n ∧ n < 2 ^ 63 then some n else none

/-- Read a value. What is neither a truth value nor a number must be a regular expression. -/
def read? (t : Text) : Option FieldValue :=
  if t = "true".toList then some (.truth true)
  else if t = "false".toList then some (.truth false)
  else
    match readUnsigned? t, readSigned? t, readDouble? t with
    | some n, _, _ => some (.unsigned n)
    | none, some i, _ => some (.signed i)
    | none, none, some x => some (if x.isNaN then .notANumber else .double x)
    | none, none, none => if Expression.isExpression t then some (.pattern t) else none

/-- A value as it is written. -/
def render : FieldValue → Text
  | .truth value => if value then "true".toList else "false".toList
  | .double value => floatText value
  | .notANumber => "NaN".toList
  | .unsigned value => numeral value
  | .signed value => integer value
  | .pattern expression => expression

/-- The place of a kind of values in the order. -/
def rank : FieldValue → Nat
  | .truth _ => 0
  | .double _ => 1
  | .notANumber => 2
  | .unsigned _ => 3
  | .signed _ => 4
  | .pattern _ => 5

/-- The order of texts. -/
def textOrder (a b : Text) : Ordering :=
  if before a b then .lt else if before b a then .gt else .eq

/-- The order of values: by kind, and then by value. -/
def order (a b : FieldValue) : Ordering :=
  match a, b with
  | .truth a, .truth b => compare a b
  | .double a, .double b => if a < b then .lt else if b < a then .gt else .eq
  | .unsigned a, .unsigned b => compare a b
  | .signed a, .signed b => compare a b
  | .pattern a, .pattern b => textOrder a b
  | a, b => compare a.rank b.rank

end FieldValue

/-- A field that a directive asks for, by name, and its value if that matters. -/
structure LogField where
  name : Text
  value : Option FieldValue

namespace LogField

/-- Read a field: a name, and a value after an equals sign. What stands after another one does not
count. -/
def read? (t : Text) : Option LogField :=
  match t.splitOn '=' with
  | name :: value :: _ => (FieldValue.read? value).map fun value => ⟨name, some value⟩
  | [name] => some ⟨name, none⟩
  | [] => none

/-- A field as it is written. -/
def render (f : LogField) : Text :=
  match f.value with
  | some value => f.name ++ '=' :: value.render
  | none => f.name

/-- The order of fields: those with a value last, and then by name and value. -/
def order (a b : LogField) : Ordering :=
  match a.value, b.value with
  | none, some _ => .lt
  | some _, none => .gt
  | none, none => FieldValue.textOrder a.name b.name
  | some v, some w => (FieldValue.textOrder a.name b.name).then (v.order w)

end LogField

end MessageCatalog
