import MessageCatalog.Document.Yaml.Token

/-!
# Cutting YAML texts

What the next token of a YAML text is shows from its first characters, and from whether brackets are
open around it.
-/

namespace MessageCatalog.Yaml

/-- The name of an anchor or an alias, and the rest. A gap or one of some signs must follow it. -/
def takeName? (t : List Spot) : Option (Text × List Spot) :=
  let (name, rest) := takeWord t
  let ends := atGap rest || rest.head?.any fun s => "?:,]\x7d%@`".toList.contains s.char
  if name ≠ [] ∧ ends then some (name, rest) else none

/-- The bracket that a character opens. -/
def opens? : Char → Option Bracket
  | '[' => some .flowList
  | '{' => some .flowMapping
  | _ => none

/-- The bracket that a character closes. -/
def closes? : Char → Option Bracket
  | ']' => some .flowList
  | '}' => some .flowMapping
  | _ => none

namespace Cut

/-- Take a block scalar. A key may begin after it. -/
def takeBlock? (c : Cut) (literal : Bool) (rest : List Spot) : Option (Cut × List Spot) := do
  let c ← c.dropKey?
  let (text, rest) ← blockScalar? literal c.least rest
  return ((c.allowKey true).add (.scalar (if literal then .literal else .folded) text), rest)

/-- Take a quoted scalar. -/
def takeQuoted? (c : Cut) (here : Spot) (rest : List Spot) : Option (Cut × List Spot) := do
  let (text, rest) ← quotedFrom? here.char .none rest
  return (← c.addNode? here (.scalar .quoted text), rest)

/-- Take a plain scalar. When the gap after it goes on to another line, a key may begin there. -/
def takePlain? (c : Cut) (here : Spot) (t : List Spot) : Option (Cut × List Spot) := do
  let (text, broken, rest) ← plainFrom? c.inBrackets c.least .none t
  return ((← c.addNode? here (.scalar .plain text)).allowKey broken, rest)

/-- Take a token that a single character makes up, or begins. -/
def takeSign? (c : Cut) (here : Spot) (rest : List Spot) : Option (Cut × List Spot) :=
  match opens? here.char, closes? here.char, here.char with
  | some bracket, _, _ => (c.addOpening? here bracket).map (·, rest)
  | _, some bracket, _ => (c.addClosing? bracket).map (·, rest)
  | _, _, ',' => c.addComma?.map (·, rest)
  | _, _, '*' => do
    let (name, rest) ← takeName? rest
    return (← c.addNode? here (.alias name), rest)
  | _, _, '&' => do
    let (name, rest) ← takeName? rest
    return (← c.addNode? here (.anchor name), rest)
  | _, _, '!' => do
    let (name, rest) ← taggedGap? c.inBrackets rest
    return (← c.addNode? here (.tag name), rest)
  | _, _, '\'' | _, _, '"' => c.takeQuoted? here rest
  | _, _, '|' => if c.inBrackets then none else c.takeBlock? true rest
  | _, _, '>' => if c.inBrackets then none else c.takeBlock? false rest
  | _, _, _ => none

/-- Take the next token, which begins with the first character. -/
def step? (c : Cut) (here : Spot) (rest : List Spot) : Option (Cut × List Spot) := do
  let c := (← c.expireKeys? here).closeBlocks (some here.column)
  let t := here :: rest
  if here.char = '%' ∧ here.column = 0 then
    let (directive, rest) ← directive? rest
    return (← c.addAlone? (.directive directive), rest)
  else if startsMarker '-' t then return (← c.addAlone? .documentStart, rest.drop 2)
  else if startsMarker '.' t then return (← c.addAlone? .documentEnd, rest.drop 2)
  else if here.char = '-' ∧ atGap rest then
    return (← c.addBeginning? here .blockList .dash true, rest)
  -- between brackets no gap is needed after the signs of keys and values
  else if here.char = '?' ∧ (c.inBrackets ∨ atGap rest) then
    return (← c.addBeginning? here .blockMapping .key (!c.inBrackets), rest)
  else if here.char = ':' ∧ (c.inBrackets ∨ atGap rest) then return (← c.addColon? here, rest)
  else if startsPlain c.inBrackets t then c.takePlain? here t
  else c.takeSign? here rest

/-- The tokens of a text that is cut so far. -/
def finish? (c : Cut) : Option (List Token) :=
  (c.closeBlocks none).dropKey?.map fun c => c.tokens.reverse

/-- Cut the rest of a text into tokens. -/
def run? (c : Cut) (t : List Spot) : Option (List Token) :=
  match nextContent c.inBrackets c.mayBeginKey false t with
  | (_, []) => c.finish?
  | (mayBeginKey, here :: rest) =>
    match (c.allowKey mayBeginKey).step? here rest with
    | none => none
    | some (c, rest) => if rest.length < t.length then c.run? rest else none
termination_by t.length

end Cut

/-- Cut a text into tokens. -/
def cut? (t : Text) : Option (List Token) := Cut.start.run? (spots t)

end MessageCatalog.Yaml
