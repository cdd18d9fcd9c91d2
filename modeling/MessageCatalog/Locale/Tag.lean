import MessageCatalog.Ordered
import MessageCatalog.Text.Basic

/-!
# Locale tags

A locale tag is a language with an optional script, an optional region, and variants. It is
written with `-` or `_` between its subtags and in any case; its canonical text has `-` between
them, the script in title case, the region in capitals, and the variants sorted. Tags are compared
and ordered by their canonical text.
-/

namespace MessageCatalog

open Text

/-- A locale tag by its subtags, each in canonical case. -/
structure LocaleTag where
  language : Text
  script : Option Text
  region : Option Text
  variants : List Text
  deriving DecidableEq, Repr, Inhabited

/-- Why a text is no locale tag. -/
inductive LocaleTagError where
  | empty
  | invalidLanguage
  | invalidSubtag
  deriving DecidableEq, Repr

/-- The reason given for a rejected tag. -/
def LocaleTagError.reason : LocaleTagError → String
  | .empty => "empty tag"
  | .invalidLanguage => "Parser error: The given language subtag is invalid"
  | .invalidSubtag => "Parser error: Invalid subtag"

namespace LocaleTag

/-! ## Section 1: Canonical text -/

/-- The canonical text of a tag. -/
def text (tag : LocaleTag) : Text :=
  join ['-'] (tag.language :: tag.script.toList ++ tag.region.toList ++ tag.variants)

/-- The canonical text as a string. -/
def str (tag : LocaleTag) : String := tag.text.str

instance : Ord LocaleTag := ⟨compareOn text⟩

instance : Std.TransOrd LocaleTag :=
  inferInstanceAs (Std.TransCmp (compareOn text))

/-- Two tags are the same when their canonical texts are. -/
def same (a b : LocaleTag) : Bool := a.text == b.text

/-- Two tags of the same language. -/
def sameLanguage (a b : LocaleTag) : Bool := a.language == b.language

/-- The undetermined language. -/
def undetermined : Text := "und".toList

/-- The part of a resource file's name that tells the locale: language, region and variants with
`_` between them, and nothing for the undetermined language. The script is left out. -/
def resourceSuffix (tag : LocaleTag) : Text :=
  if tag.language = undetermined then []
  else join ['_'] (tag.language :: tag.region.toList ++ tag.variants)

/-! ## Section 2: Subtags -/

/-- An ASCII letter or digit. -/
def isAlnum (c : Char) : Bool := c.isAlphanum

/-- A language: two, three, or five to eight letters, in small letters. -/
def language? (s : Text) : Option Text :=
  if (s.length = 2 ∨ s.length = 3 ∨ (5 ≤ s.length ∧ s.length ≤ 8)) ∧ s.all isLetter then
    some (lower s)
  else none

/-- A script: four letters, the first a capital. -/
def script? (s : Text) : Option Text :=
  if s.length = 4 ∧ s.all isLetter then
    match s with
    | c :: cs => some (c.toUpper :: lower cs)
    | [] => none
  else none

/-- A region: two letters, in capitals, or three digits. -/
def region? (s : Text) : Option Text :=
  if s.length = 2 ∧ s.all isLetter then some (s.map Char.toUpper)
  else if s.length = 3 ∧ s.all Char.isDigit then some s
  else none

/-- A variant: five to eight letters and digits, or four characters of which the first is a digit
or the last three are letters and digits; in small letters. -/
def variant? (s : Text) : Option Text :=
  if 5 ≤ s.length ∧ s.length ≤ 8 ∧ s.all isAlnum then some (lower s)
  else if s.length = 4 ∧ s.all (fun c => decide (0 < c.toNat ∧ c.toNat < 128)) then
    match s with
    | c :: cs => if c.isDigit || cs.all isAlnum then some (lower s) else none
    | [] => none
  else none

/-! ## Section 3: Reading a tag -/

/-- Split at hyphens and underscores. -/
def subtags (t : Text) : List Text := t.splitOnP fun c => c == '-' || c == '_'

/-- Take the first subtag when it has the wanted form. -/
def takeSubtag (form : Text → Option Text) : List Text → Option Text × List Text
  | [] => (none, [])
  | s :: rest =>
    match form s with
    | some s => (some s, rest)
    | none => (none, s :: rest)

/-- Read a tag; blanks around it do not count. -/
def parse (source : Text) : Except LocaleTagError LocaleTag :=
  let trimmed := trim source
  if trimmed = [] then .error .empty
  else
    match subtags trimmed with
    | [] => .error .invalidLanguage
    | first :: rest =>
      match language? first with
      | none => .error .invalidLanguage
      | some language =>
        let (script, rest) := takeSubtag script? rest
        let (region, rest) := takeSubtag region? rest
        match rest.mapM variant? with
        | none => .error .invalidSubtag
        | some variants => .ok ⟨language, script, region, Ordered.insertAll [] variants⟩

/-- Whether the region of a tag is one of some regions. -/
def hasRegion (tag : LocaleTag) (regions : List String) : Bool :=
  tag.region.any fun r => regions.any fun s => s.toList == r

/-- Whether the language of a tag is one of some languages. -/
def hasLanguage (tag : LocaleTag) (languages : List String) : Bool :=
  languages.any fun s => s.toList == tag.language

end LocaleTag

end MessageCatalog
