import MessageCatalog.Settings.Basic
import MessageCatalog.Settings.LogField

/-!
# Log filters

What a run logs is chosen by directives between commas. A directive is a level for everything, or a
level for a target, for the spans with a name, or for those with a field; without a level everything
there is logged. The directive that says most counts first.
-/

namespace MessageCatalog

open Text

/-! ## Section 1: Levels -/

/-- The heaviest entries that are still passed over; `off` passes over all. -/
inductive FilterLevel where
  | off
  | upTo (level : LogLevel)
  deriving DecidableEq, Repr

namespace FilterLevel

/-- All filter levels, each at the place of its number. -/
def all : List FilterLevel :=
  [.off, .upTo .error, .upTo .warn, .upTo .info, .upTo .debug, .upTo .trace]

/-- The level that logs everything. -/
def everything : FilterLevel := .upTo .trace

/-- The name of a filter level. -/
def name : FilterLevel → Text
  | .off => "off".toList
  | .upTo level => lower level.name.toList

/-- Read a filter level, by number or by name in any case. -/
def read? (t : Text) : Option FilterLevel :=
  match FieldValue.readUnsigned? t with
  | some n => all[n]?
  | none => all.find? fun level => level.name == lower t

end FilterLevel

/-! ## Section 2: Slices -/

/-- The number of bytes of a text. -/
def byteSize (t : Text) : Nat := (t.map Char.utf8Size).sum

/-- The part of a text between two places, given by the bytes before them. -/
def slice (start stop : Nat) : Text → Text
  | [] => []
  | c :: rest =>
    let rest := slice (start - c.utf8Size) (stop - c.utf8Size) rest
    if start = 0 ∧ 0 < stop then c :: rest else rest

/-! ## Section 3: Directives -/

/-- A directive: a level for everything, or for what has a target, a span or a field. -/
structure LogDirective where
  target : Option Text := none
  span : Option Text := none
  field : Option LogField := none
  level : FilterLevel

namespace LogDirective

/-- Whether a character may begin a target. -/
def beginsTarget (c : Char) : Bool := isAlphanumeric c || c = '-' || c = ':' || c = '_'

/-- Read the level after an equals sign. -/
def readLevel? (t : Text) : Option FilterLevel :=
  if t = [] then some .everything else FilterLevel.read? t

/-- Read a word that stands alone. One that is no level is a target. -/
def ofWord (t : Text) : LogDirective :=
  match FilterLevel.read? t with
  | some level => { level }
  | none => { target := some t, level := .everything }

end LogDirective

/-- The text of a directive. The parts of it are found in the text without the blanks around it.
Their places there are counted in bytes, and each part is what stands at its place in the text as it
is given: so blanks at the end belong to the last part, and blanks at the beginning shift all
parts. -/
structure DirectiveText where
  given : Text

namespace DirectiveText

/-- The text without the blanks around it. -/
def body (t : DirectiveText) : Text := trim t.given

/-- The place of a rest of the text: the bytes before it. -/
def place (t : DirectiveText) (rest : Text) : Nat := byteSize t.body - byteSize rest

/-- What stands from one rest of the text to another one. -/
def part (t : DirectiveText) (start stop : Text) : Text :=
  slice (t.place start) (t.place stop) t.given

/-- What stands from a rest of the text to the end. -/
def lastPart (t : DirectiveText) (start : Text) : Text :=
  slice (t.place start) (byteSize t.given) t.given

/-- Read the level at the end. Without one everything is logged. -/
def levelFrom? (t : DirectiveText) : (rest : Text) → Option FilterLevel
  | [] => some .everything
  | '=' :: rest => LogDirective.readLevel? (t.lastPart rest)
  | _ => none

/-- Read a field between braces, and the level after it. -/
def fieldFrom? (t : DirectiveText) (target span : Option Text) (fields : Text) :
    Option LogDirective := do
  let rest : Text := fields.dropWhile (· != '}')
  let after ← stripPrefix? ['}', ']'] rest
  if rest = fields then none
  else
    let field ← LogField.read? (t.part fields rest)
    return { target, span, field := some field, level := ← t.levelFrom? after }

/-- Read the name of a span between brackets, with a field or without one, and the level after it. A
field needs no span. -/
def spanFrom? (t : DirectiveText) (target : Option Text) (start : Text) : Option LogDirective :=
  let rest : Text := start.dropWhile fun c => c != ']' && c != '{'
  let span := t.part start rest
  match rest with
  | '{' :: fields => t.fieldFrom? target (if span = [] then none else some span) fields
  | _ :: after => (t.levelFrom? after).map fun level => { target, span := some span, level }
  | [] => none

/-- Read a directive. -/
def read? (t : DirectiveText) : Option LogDirective :=
  match t.body with
  | [] => none
  | '[' :: start => t.spanFrom? none start
  | c :: _ =>
    if !LogDirective.beginsTarget c then none
    else
      let rest : Text := t.body.dropWhile fun c => c != '=' && c != '['
      let target := some (t.part t.body rest)
      match rest with
      | [] => some (.ofWord t.given)
      | '[' :: start => t.spanFrom? target start
      | after => (t.levelFrom? after).map fun level => { target, level }

end DirectiveText

namespace LogDirective

/-- Whether a directive is told apart by target alone, or by the name of a field. -/
def isStatic (d : LogDirective) : Bool := d.span.isNone && d.field.all fun f => f.value.isNone

/-- Whether a directive asks for a span or a field. -/
def isDynamic (d : LogDirective) : Bool := d.span.isSome || d.field.isSome

/-- The order of what may be missing: what is missing comes first. -/
def optionOrder {α : Type} (order : α → α → Ordering) : Option α → Option α → Ordering
  | none, none => .eq
  | none, some _ => .lt
  | some _, none => .gt
  | some a, some b => order a b

/-- How much a directive says: a longer target says more, then a span, then a field. Of directives
that say equally much the later one in the order of their parts comes first. -/
def order (a b : LogDirective) : Ordering :=
  (optionOrder compare (a.target.map byteSize) (b.target.map byteSize)).then <|
  (compare a.span.isSome b.span.isSome).then <|
  (compare a.field.isSome b.field.isSome).then <|
  (optionOrder FieldValue.textOrder a.target b.target).then <|
  (optionOrder FieldValue.textOrder a.span b.span).then <|
  optionOrder LogField.order a.field b.field

/-- Put a directive among others, those that say most first; it takes the place of one that asks for
the same. -/
def insert (d : LogDirective) : List LogDirective → List LogDirective
  | [] => [d]
  | e :: rest =>
    match d.order e with
    | .eq => d :: rest
    | .gt => d :: e :: rest
    | .lt => e :: insert d rest

/-- A directive as it is written. -/
def render (d : LogDirective) : Text :=
  let field := match d.field with
    | some f => '{' :: f.render ++ ['}']
    | none => []
  let inside := if d.isDynamic then '[' :: d.span.getD [] ++ field ++ [']'] else []
  let scope := d.target.getD [] ++ inside
  if d.target.isSome ∨ d.isDynamic then scope ++ '=' :: d.level.name else d.level.name

end LogDirective

/-! ## Section 4: Filters -/

/-- A filter: the directives that hold everywhere, and those that depend on spans, each with those
that say most first. A directive that asks for the name of a field only is among both. -/
structure LogFilter where
  statics : List LogDirective
  dynamics : List LogDirective

namespace LogFilter

/-- The filter of some directives, of which a later one replaces an earlier one for the same. -/
def ofDirectives (directives : List LogDirective) : LogFilter :=
  let sorted : List LogDirective → List LogDirective :=
    List.foldl (fun sorted d => d.insert sorted) []
  ⟨sorted (directives.filter LogDirective.isStatic),
    sorted (directives.filter LogDirective.isDynamic)⟩

/-- The filter of a text; `none` when a directive is not well formed. -/
def read? (t : Text) : Option LogFilter :=
  (((t.splitOn ',').filter fun part => !part.isEmpty).mapM fun part =>
    DirectiveText.read? ⟨part⟩).map ofDirectives

/-- A filter as it is written. -/
def render (f : LogFilter) : Text :=
  join [','] ((f.statics ++ f.dynamics).map LogDirective.render)

end LogFilter

/-- The filter of some settings: `info`, when the directives are not well formed. -/
def LoggingSettings.filter (l : LoggingSettings) : LogFilter :=
  (LogFilter.read? l.level).getD (.ofDirectives [{ level := .upTo .info }])

end MessageCatalog
