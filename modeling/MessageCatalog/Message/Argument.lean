import MessageCatalog.Calendar.DateTime
import MessageCatalog.Number.Basic

/-!
# Message arguments

The values that stand for the placeholders of a message, by index.

## Main statements

* `store_fresh` : storing at an index without a value puts the value there
-/

namespace MessageCatalog

/-- A positional argument of a message. -/
inductive Argument where
  | missing
  | text (t : Text)
  | number (n : Number)
  | date (d : DateTime)
  deriving DecidableEq

namespace Argument

instance : Inhabited Argument := ⟨missing⟩

/-- The kind of an argument, for messages. -/
def kind : Argument → String
  | missing => "missing"
  | text _ => "text"
  | number _ => "number"
  | date _ => "date"

/-- Whether there is no value. -/
def isMissing : Argument → Bool
  | missing => true
  | _ => false

/-- Two arguments are the same when they are of one kind and their values are the same. -/
def same : Argument → Argument → Bool
  | missing, missing => true
  | text a, text b => a == b
  | number a, number b => a.same b
  | date a, date b => a == b
  | _, _ => false

/-- The argument at an index; beyond the end it is missing. -/
def at? (args : List Argument) (index : Nat) : Argument := args.getD index missing

/-- Put a value at an index, with missing values up to it. A value that is there already must be the
same; otherwise nothing is stored. -/
def store? (args : List Argument) (index : Nat) (value : Argument) : Option (List Argument) :=
  let args := args.rightpad (index + 1) missing
  let present := at? args index
  if present.isMissing then some (args.set index value)
  else if present.same value then some args
  else none

/-- Storing at an index without a value puts the value there. -/
theorem store_fresh {args : List Argument} {index : Nat} {value : Argument}
    (h : (at? (args.rightpad (index + 1) missing) index).isMissing = true) :
    store? args index value = some ((args.rightpad (index + 1) missing).set index value) := by
  unfold store?
  exact if_pos h

end Argument

end MessageCatalog
