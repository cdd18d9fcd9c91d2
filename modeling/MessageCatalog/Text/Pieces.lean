/-!
# Reading a list piece by piece

A reader takes one piece after another from the front of a list, of characters or of tokens, as long
as a step finds one. The state tells each step what the pieces before it were.
-/

namespace MessageCatalog.Text

variable {σ α β : Type}

/-- Take pieces from the front of a list while a step finds one; a piece that takes no element ends
the run. Gives the pieces, the last state, and the rest of the list. -/
def takePieces (step : σ → List β → Option (α × σ × List β)) (s : σ) (t : List β) :
    List α × σ × List β :=
  match step s t with
  | none => ([], s, t)
  | some (piece, next, rest) =>
    if rest.length < t.length then
      let (pieces, last, rest) := takePieces step next rest
      (piece :: pieces, last, rest)
    else ([], s, t)
termination_by t.length

/-- Take pieces of one kind while there is one. -/
def takeWhile? (step : List β → Option (α × List β)) (t : List β) : List α × List β :=
  let (pieces, _, rest) :=
    takePieces (fun (_ : Unit) t => (step t).map fun (piece, rest) => (piece, (), rest)) () t
  (pieces, rest)

/-- The pieces of one kind that make up a whole list. -/
def takeAll? (step : List β → Option (α × List β)) (t : List β) : Option (List α) :=
  match takeWhile? step t with
  | (pieces, []) => some pieces
  | _ => none

end MessageCatalog.Text
