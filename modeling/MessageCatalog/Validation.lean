import MessageCatalog.Loader
import MessageCatalog.Specs

/-!
# Validating bundles

The signature of the main locale's template is in force for every key. The other locales are taken
in tag order: where the type in force is open, the first type that a locale gives settles it, and
every other deviation is a problem. Keys that only another locale has are problems as well.
Validation itself never fails.

## Main statements

* `perm_errors` : sorting the problems loses none and adds none
-/

namespace MessageCatalog

open Text

namespace Validation

/-! ## Section 1: Comparing signatures -/

/-- The problem of a type that differs from the one in force. -/
def typeMismatch (key : Text) (tag : LocaleTag) (index : Nat) (expected found : ArgType) :
    SpecError :=
  ⟨key, some tag, .argTypeMismatch,
    s!"argument {index}: expected {expected.name}, found {found.name}"⟩

/-- Compare the types from `index` on with those in force, one by one. -/
def compareTypes (key : Text) (tag : LocaleTag) :
    (index : Nat) → (found : List ArgType) → (inForce : Signature) → Signature × List SpecError
  | _, [], inForce => (inForce, [])
  | index, type :: rest, inForce =>
    match inForce.get? index with
    | none => compareTypes key tag (index + 1) rest inForce
    | some expected =>
      if !type.isConcrete || expected = type then compareTypes key tag (index + 1) rest inForce
      else
        -- an open type is settled by the first locale that gives one
        match inForce.refine index type with
        | (refined, true) => compareTypes key tag (index + 1) rest refined
        | (_, false) =>
          let (settled, errors) := compareTypes key tag (index + 1) rest inForce
          (settled, typeMismatch key tag index expected type :: errors)

/-- Compare the signature of a locale with the one in force. -/
def compareSignatures (key : Text) (tag : LocaleTag) (inForce found : Signature) :
    Signature × List SpecError :=
  if inForce.size ≠ found.size then
    (inForce, [⟨key, some tag, .argCountMismatch,
      s!"expected {inForce.size} args, found {found.size}"⟩])
  else compareTypes key tag 0 found.types inForce

/-! ## Section 2: One key -/

/-- A template that cannot be read. -/
def unreadable (key : Text) (tag : LocaleTag) (e : TemplateError) : SpecError :=
  ⟨key, some tag, .parseError, e.message⟩

/-- A key that a locale lacks. -/
def missing (key : Text) (tag : LocaleTag) : SpecError :=
  ⟨key, some tag, .missingKey, s!"key is not defined for locale {tag.str}"⟩

/-- The signature of a template, or the problem it has instead. -/
def readSignature (key : Text) (tag : LocaleTag) (template : Text) :
    Option Signature × List SpecError :=
  match Template.parseSignature template with
  | .ok signature => (some signature, [])
  | .error e => (none, [unreadable key tag e])

/-- Check the template of one more locale against the signature in force, if there is one. -/
def checkLocale (key : Text) (inForce : Option Signature) (tag : LocaleTag)
    (template : Option Text) : Option Signature × List SpecError :=
  match template with
  | none => (inForce, [missing key tag])
  | some template =>
    match readSignature key tag template, inForce with
    | (none, errors), inForce => (inForce, errors)
    | (some _, _), none => (none, [])
    | (some found, _), some inForce =>
      let (settled, errors) := compareSignatures key tag inForce found
      (some settled, errors)

/-- Check the templates of the secondary locales in turn. -/
def checkLocales (key : Text) :
    (inForce : Option Signature) → List (LocaleTag × Option Text) →
      Option Signature × List SpecError
  | inForce, [] => (inForce, [])
  | inForce, (tag, template) :: rest =>
    let (settled, errors) := checkLocale key inForce tag template
    let (final, others) := checkLocales key settled rest
    (final, errors ++ others)

/-- The outcome for one key: the main template and the templates of the secondary locales. -/
def checkKey (key : Text) (main : LocaleTag) (template : Text)
    (others : List (LocaleTag × Option Text)) : MessageSpec × List SpecError :=
  let (inForce, mainErrors) := readSignature key main template
  let (settled, errors) := checkLocales key inForce others
  let present := others.filterMap fun (tag, template) => template.map (tag, ·)
  (⟨key, settled, Table.ofList ((main, template) :: present)⟩, mainErrors ++ errors)

/-! ## Section 3: The bundle -/

/-- The template of a key in a locale; a locale that was not loaded has none. -/
def templateIn (maps : Table LocaleTag LocaleMessages) (key : Text) (tag : LocaleTag) :
    Option Text :=
  (maps.get? tag).bind fun m => m.messages.get? key

/-- The problems of keys that a secondary locale has and the main locale lacks. -/
def extraKeys (main : LocaleTag) (mainMessages : Table Text Text)
    (maps : Table LocaleTag LocaleMessages) (tag : LocaleTag) : List SpecError :=
  match maps.get? tag with
  | none => []
  | some m =>
    (m.messages.keys.filter fun key => !mainMessages.contains key).map fun key =>
      ⟨key, some tag, .extraKey, s!"key is not defined for main locale {main.str}"⟩

/-- The outcome for every key of the main locale, in key order. -/
def checkKeys (b : Bundle) (maps : Table LocaleTag LocaleMessages)
    (mainMessages : Table Text Text) : List (MessageSpec × List SpecError) :=
  mainMessages.entries.map fun (key, template) =>
    checkKey key b.mainLocale template
      (b.secondaryLocales.map fun tag => (tag, templateIn maps key tag))

/-- The templates of the main locale. -/
def mainMessages (b : Bundle) (maps : Table LocaleTag LocaleMessages) : Table Text Text :=
  match maps.get? b.mainLocale with
  | some m => m.messages
  | none => Table.empty

/-- All problems, in the order in which they are found. -/
def foundErrors (b : Bundle) (maps : Table LocaleTag LocaleMessages) : List SpecError :=
  (checkKeys b maps (mainMessages b maps)).flatMap Prod.snd ++
    b.secondaryLocales.flatMap (extraKeys b.mainLocale (mainMessages b maps) maps)

/-- Problems by key and then by locale; those of one key and locale stay in the order in which they
were found. -/
def sortErrors (errors : List SpecError) : List SpecError := errors.mergeSort SpecError.atMost

/-- Sorting the problems loses none and adds none. -/
theorem perm_errors (errors : List SpecError) : (sortErrors errors).Perm errors :=
  List.mergeSort_perm errors SpecError.atMost

end Validation

namespace Bundle

open Validation in
/-- Validate the messages of the tracked locales. A locale without messages counts as empty. -/
def validate (b : Bundle) (maps : Table LocaleTag LocaleMessages) : MessageSpecs where
  bundleName := b.name
  keyPrefix := b.keyPrefix
  mainLocale := b.mainLocale
  locales := b.locales
  specs := Table.ofList <|
    (checkKeys b maps (mainMessages b maps)).map fun (spec, _) => (spec.key, spec)
  errors := sortErrors (foundErrors b maps)

/-- Load a bundle and validate it. -/
def loadAndValidate (b : Bundle) (files : FileTree) : Logged BundleError MessageSpecs := do
  let maps ← b.loadAll files
  let specs := b.validate maps
  Logged.log (.information
    s!"Validated {specs.size} keys across {specs.locales.length} locales: {specs.errors.length} errors")
  Logged.log (.information "Validated bundle")
  pure specs

end Bundle

end MessageCatalog
