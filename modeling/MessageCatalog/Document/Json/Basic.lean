import MessageCatalog.Document.Basic

/-!
# JSON values

JSON values, with the fields of objects in the order in which they are written.
-/

namespace MessageCatalog

/-- A JSON value. A number is kept as it is written. -/
inductive Json where
  | null
  | bool (value : Bool)
  | number (digits : Text)
  | string (text : Text)
  | list (items : List Json)
  | object (fields : List (String × Json))

namespace Json

/-- A natural number. -/
def nat (n : Nat) : Json := .number (Text.numeral n)

/-- The value, or `null` when there is none. -/
def optional {α : Type} (f : α → Json) : Option α → Json
  | some a => f a
  | none => .null

/-- A record may be written as a list of its fields in order; the last ones may be missing. A
constant may be written as the only field of an object, with no value. -/
instance : Document Json where
  text?
    | .string text => some text
    | _ => none
  constant?
    | .string text => some text
    | .object [(name, .null)] => some name.toList
    | _ => none
  truth?
    | .bool value => some value
    | _ => none
  isNull?
    | .null => some true
    | _ => some false
  items?
    | .list items => some items
    | _ => none
  fields? names
    | .object fields => some fields
    | .list items => if items.length ≤ names.length then some (names.zip items) else none
    | _ => none

end Json

end MessageCatalog
