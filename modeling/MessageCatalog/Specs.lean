import MessageCatalog.Bundle
import MessageCatalog.Template.Signature

/-!
# Specifications of messages

The outcome of a validation: for every key of the main locale its signature and its templates, and
all problems that were found, by key and then by locale.

## Main statements

* `mem_generatable_iff` : a message can have an accessor when it has a signature and all its
  templates can be read
-/

namespace MessageCatalog

open Text

/-- The kinds of problems between the locales of a message. -/
inductive SpecErrorKind where
  /-- A template is malformed, or gives an index two types. -/
  | parseError
  /-- A secondary locale lacks a key of the main locale. -/
  | missingKey
  /-- A secondary locale has a key that the main locale lacks. -/
  | extraKey
  /-- The number of arguments differs from the main locale's. -/
  | argCountMismatch
  /-- The type of an argument differs from the one in force. -/
  | argTypeMismatch
  deriving DecidableEq, Repr

namespace SpecErrorKind

/-- The name of a kind in reports. -/
def name : SpecErrorKind → String
  | .parseError => "PARSE_ERROR"
  | .missingKey => "MISSING_KEY"
  | .extraKey => "EXTRA_KEY"
  | .argCountMismatch => "ARG_COUNT_MISMATCH"
  | .argTypeMismatch => "ARG_TYPE_MISMATCH"

/-- All kinds, in the order in which reports count them. -/
def all : List SpecErrorKind :=
  [.parseError, .missingKey, .extraKey, .argCountMismatch, .argTypeMismatch]

/-- The kind of a name. -/
def ofName? (s : String) : Option SpecErrorKind := all.find? (·.name == s)

end SpecErrorKind

/-- One problem: the key, the locale it was found in, its kind, and what is wrong. -/
structure SpecError where
  key : Text
  locale : Option LocaleTag
  kind : SpecErrorKind
  detail : String
  deriving DecidableEq, Repr

namespace SpecError

/-- A problem on one line. -/
def render (e : SpecError) : String :=
  match e.locale with
  | some tag => s!"{e.kind.name} [{tag.str}] {e.key.str}: {e.detail}"
  | none => s!"{e.kind.name} {e.key.str}: {e.detail}"

/-- The order of locales in reports: a problem without a locale comes first. -/
def compareLocale : Option LocaleTag → Option LocaleTag → Ordering
  | none, none => .eq
  | none, some _ => .lt
  | some _, none => .gt
  | some a, some b => compare a b

/-- A problem may stand before another one: by key, then by locale. -/
def atMost (a b : SpecError) : Bool :=
  ((compare a.key b.key).then (compareLocale a.locale b.locale)).isLE

end SpecError

/-- What is known of one message: its signature, unless the main template has none, and its template
in every locale that defines it. -/
structure MessageSpec where
  key : Text
  signature : Option Signature
  templates : Table LocaleTag Text

/-- The outcome of a validation. -/
structure MessageSpecs where
  bundleName : Text
  keyPrefix : Text
  mainLocale : LocaleTag
  locales : List LocaleTag
  specs : Table Text MessageSpec
  errors : List SpecError

namespace MessageSpecs

/-- The number of messages. -/
def size (s : MessageSpecs) : Nat := s.specs.size

/-- No problem was found. -/
def isClean (s : MessageSpecs) : Bool := s.errors.isEmpty

/-- The signature of a message. -/
def signature? (s : MessageSpecs) (key : Text) : Option Signature :=
  (s.specs.get? key).bind MessageSpec.signature

/-- The template of a message in a locale. -/
def template? (s : MessageSpecs) (key : Text) (tag : LocaleTag) : Option Text :=
  (s.specs.get? key).bind fun spec => spec.templates.get? tag

/-- The problems of a key. -/
def errorsFor (s : MessageSpecs) (key : Text) : List SpecError :=
  s.errors.filter fun e => e.key == key

/-- Whether a template of a key cannot be read in some locale. -/
def hasParseError (s : MessageSpecs) (key : Text) : Bool :=
  (s.errorsFor key).any fun e => e.kind == .parseError

/-- The number of problems of each kind that there are any of, in the order of the kinds. -/
def errorCounts (s : MessageSpecs) : List (SpecErrorKind × Nat) :=
  (SpecErrorKind.all.map fun kind => (kind, s.errors.countP fun e => e.kind == kind)).filter
    fun entry => entry.2 != 0

/-- The messages that can have an accessor: those with a signature whose templates can all be
read. -/
def generatable (s : MessageSpecs) : List (MessageSpec × Signature) :=
  s.specs.values.filterMap fun spec =>
    match spec.signature with
    | some signature => if s.hasParseError spec.key then none else some (spec, signature)
    | none => none

/-- A message can have an accessor when it has a signature and all its templates can be read. -/
theorem mem_generatable_iff {s : MessageSpecs} {spec : MessageSpec} {signature : Signature} :
    (spec, signature) ∈ s.generatable ↔
      spec ∈ s.specs.values ∧ spec.signature = some signature ∧ s.hasParseError spec.key = false := by
  simp only [generatable, List.mem_filterMap]
  constructor
  · rintro ⟨spec', hmem, h⟩
    split at h
    · rename_i signature' hs
      split at h
      · simp at h
      · obtain ⟨rfl, rfl⟩ : spec' = spec ∧ signature' = signature := by simpa using h
        exact ⟨hmem, hs, by simp_all⟩
    · simp at h
  · rintro ⟨hmem, hs, hp⟩
    exact ⟨spec, hmem, by simp [hs, hp]⟩

end MessageSpecs

end MessageCatalog
