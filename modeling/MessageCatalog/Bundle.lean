import MessageCatalog.FileTree
import MessageCatalog.Locale.Tag
import MessageCatalog.Ordered
import MessageCatalog.Text.Quoted

/-!
# Bundles

A bundle is a family of resource files, one for each tracked locale, that share a base name and a
key prefix and are looked for under some roots. It tracks its main locale, and its locales are in
the order of their tags. It is built from a definition whose parts are checked in order.
-/

namespace MessageCatalog

open Text

/-- Which root wins when several define a key. -/
inductive OverridePolicy where
  | lastRootWins
  | firstRootWins
  deriving DecidableEq, Repr

namespace OverridePolicy

/-- The name of a policy in configurations. -/
def name : OverridePolicy → String
  | .lastRootWins => "last_root_wins"
  | .firstRootWins => "first_root_wins"

/-- The policy of a name. -/
def ofName? : String → Option OverridePolicy
  | "last_root_wins" => some .lastRootWins
  | "first_root_wins" => some .firstRootWins
  | _ => none

end OverridePolicy

/-! ## Section 1: Failures -/

/-- Why a bundle cannot be built or loaded. -/
inductive BundleError where
  /-- A locale tag is not well formed. -/
  | invalidLocale (tag : Text) (error : LocaleTagError)
  /-- The base name is empty or has an empty part. -/
  | invalidName (name : Text)
  | mainLocaleNotSet
  | noRoots
  /-- The main locale has no resource file under any root. -/
  | resourceNotFound (bundle locale file : Text) (roots : List Path)
  /-- The main locale defines no key with the prefix. -/
  | noKeysInScope (keyPrefix locale : Text)
  /-- A resource file is there but cannot be read. -/
  | unreadable (path : Path) (error : FileError)
  deriving DecidableEq, Repr

namespace BundleError

/-- The text of a bundle error. -/
def message : BundleError → String
  | .invalidLocale tag error => s!"Invalid locale tag '{tag.str}': {error.reason}"
  | .invalidName name => s!"Invalid bundle definition: invalid bundle base name '{name.str}'"
  | .mainLocaleNotSet => "Invalid bundle definition: main locale is not set"
  | .noRoots => "Invalid bundle definition: at least one resource root is required"
  | .resourceNotFound bundle locale file roots =>
    s!"Resource '{file.str}' for main locale {locale.str} of bundle '{bundle.str}' not found in any of "
      ++ quotedList roots
  | .noKeysInScope keyPrefix locale =>
    s!"No key with prefix '{keyPrefix.str}' found for main locale {locale.str}"
  | .unreadable path error => s!"Failed to read resource file {path.str}: {error.message}"

end BundleError

/-! ## Section 2: Bundles -/

/-- What a bundle is built from. -/
structure BundleDefinition where
  name : Text
  keyPrefix : Text
  mainLocale : Option Text
  locales : List Text
  roots : List Path
  overridePolicy : OverridePolicy
  deriving DecidableEq, Repr

/-- A bundle. Its tracked locales are in tag order, the main one among them. -/
structure Bundle where
  name : Text
  keyPrefix : Text
  mainLocale : LocaleTag
  locales : List LocaleTag
  roots : List Path
  overridePolicy : OverridePolicy
  ascending : Ordered.Ascending locales
  main_mem : mainLocale ∈ locales

namespace Bundle

/-- A key prefix without blanks around it and with a dot at its end, unless it is empty. -/
def normalizePrefix (keyPrefix : Text) : Text :=
  let keyPrefix := trim keyPrefix
  if keyPrefix = [] ∨ endsWith ['.'] keyPrefix then keyPrefix else keyPrefix ++ ['.']

/-- The tracked locales other than the main one, in tag order. -/
def secondaryLocales (b : Bundle) : List LocaleTag :=
  b.locales.filter fun tag => !tag.same b.mainLocale

/-- The file name of a locale: the last part of the base name and the locale's suffix. -/
def fileName (stem : Text) (tag : LocaleTag) : Text :=
  let suffix := tag.resourceSuffix
  (if suffix = [] then stem else stem ++ '_' :: suffix) ++ ".properties".toList

/-- The file of a locale below a root. Dots in the base name divide directories. -/
def resourceFile (b : Bundle) (tag : LocaleTag) : Path :=
  let parts := b.name.splitOn '.'
  let directory := parts.dropLast.foldl Path.join []
  Path.join directory (fileName (parts.getLastD []) tag)

/-- The path of a locale's file under a root. -/
def resourcePath (b : Bundle) (root : Path) (tag : LocaleTag) : Path :=
  Path.join root (b.resourceFile tag)

/-- The key without the prefix of the bundle; a key without the prefix, or with nothing after it, is
out of scope. -/
def stripKey? (b : Bundle) (key : Text) : Option Text :=
  (stripPrefix? b.keyPrefix key).filter fun rest => !rest.isEmpty

end Bundle

/-! ## Section 3: Building -/

namespace BundleDefinition

/-- Whether a base name can name files: it is not empty, and no part between its dots is. -/
def isBaseName (name : Text) : Bool :=
  name != [] && (name.splitOn '.').all fun part => part != []

/-- Read a locale tag of a definition. -/
def readTag (tag : Text) : Except BundleError LocaleTag :=
  match LocaleTag.parse tag with
  | .ok tag => .ok tag
  | .error e => .error (.invalidLocale tag e)

/-- Read some locale tags; the first that is not well formed is reported. -/
def readTags : List Text → Except BundleError (List LocaleTag)
  | [] => .ok []
  | tag :: rest => do
    let tag ← readTag tag
    let others ← readTags rest
    return tag :: others

/-- Build the bundle of a definition. The name is checked first, then that there are a main locale
and a root, then the tags. -/
def build (d : BundleDefinition) : Except BundleError Bundle := do
  let name := trim d.name
  if !isBaseName name then throw (.invalidName d.name)
  let some mainTag := d.mainLocale | throw .mainLocaleNotSet
  if d.roots.isEmpty then throw .noRoots
  let mainLocale ← readTag mainTag
  let others ← readTags d.locales
  return {
    name := name
    keyPrefix := Bundle.normalizePrefix d.keyPrefix
    mainLocale := mainLocale
    locales := Ordered.insertAll [mainLocale] others
    roots := d.roots
    overridePolicy := d.overridePolicy
    ascending := Ordered.ascending_insertAll (by simp [Ordered.Ascending])
    main_mem := Ordered.mem_insertAll_of_mem List.mem_cons_self }

end BundleDefinition

end MessageCatalog
