import MessageCatalog.Text.Basic

/-!
# Documents

Settings and records are read from trees of scalars, lists and records. The same reading serves
several formats: a format says how its trees are seen, and a value is read from those views.

A record may have fields that nobody asks for. A field that is asked for must not be given twice.
-/

namespace MessageCatalog

/-- A format whose trees can be read as values of known types. -/
class Document (δ : Type) where
  /-- The text of a scalar. -/
  text? : δ → Option Text
  /-- The name of a constant. -/
  constant? : δ → Option Text
  /-- A truth value. -/
  truth? : δ → Option Bool
  /-- Whether a value is left out; `none` when it is said to be left out and holds something. -/
  isNull? : δ → Option Bool
  /-- The items of a list. -/
  items? : δ → Option (List δ)
  /-- The fields of a record, by name. A format may give them by their order instead. -/
  fields? : (names : List String) → δ → Option (List (String × δ))

namespace Document

variable {δ α : Type}

/-- The value of a field. A field that is not given has its standard value, unless it has none; a
field that is given twice cannot be read. -/
def readField (fields : List (String × δ)) (name : String) (read : δ → Option α)
    (standard : Option α) : Option α :=
  match fields.filter fun field => field.1 == name with
  | [] => standard
  | [(_, value)] => read value
  | _ => none

variable [Document δ]

/-- A value that may be left out. -/
def readOptional (read : δ → Option α) (d : δ) : Option (Option α) := do
  if ← isNull? d then return none else (read d).map some

/-- The values of a list. -/
def readItems (read : δ → Option α) (d : δ) : Option (List α) := do (← items? d).mapM read

/-- The value of an enumeration, by name. -/
def readConstant (ofName? : String → Option α) (d : δ) : Option α :=
  (constant? d).bind fun name => ofName? name.str

end Document

end MessageCatalog
