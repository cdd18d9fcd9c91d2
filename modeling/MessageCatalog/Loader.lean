import MessageCatalog.Bundle
import MessageCatalog.Log
import MessageCatalog.Properties

/-!
# Loading bundles

The messages of a locale are gathered from its resource files under all roots, in root order. Within
a file the last definition of a key counts; between files the override policy decides. Files that
are missing are passed over, except that the main locale needs one, with at least one key in scope.

## Main statements

* `loadAll_result` : a bundle is loaded when the main locale and every other locale can be
-/

namespace MessageCatalog

open Text

/-- The templates of one locale by key, without the key prefix, and the files they came from. -/
structure LocaleMessages where
  locale : LocaleTag
  messages : Table Text Text
  sources : List Path

namespace LocaleMessages

/-- A locale without messages. -/
def empty (tag : LocaleTag) : LocaleMessages := ⟨tag, Table.empty, []⟩

/-- A locale with some messages; of two templates for one key the later one counts. -/
def ofList (tag : LocaleTag) (entries : List (Text × Text)) : LocaleMessages :=
  ⟨tag, Table.ofList entries, []⟩

/-- Whether a resource file was found. -/
def isPresent (m : LocaleMessages) : Bool := !m.sources.isEmpty

end LocaleMessages

namespace Bundle

/-! ## Section 1: One file -/

/-- The bytes of a resource file as text; a file that is not there is no failure. -/
def readResource (files : FileTree) (path : Path) : Except BundleError (Option Text) :=
  match files.readText path with
  | .ok text => .ok (some text)
  | .error .notFound => .ok none
  | .error e => .error (.unreadable path e)

/-- The entries of a document that are in scope, with their keys as written and without the
prefix. -/
def entriesInScope (b : Bundle) (content : Text) : List (Text × Text × Text) :=
  (Properties.parse content).filterMap fun (key, value) =>
    (b.stripKey? key).map fun stripped => (key, stripped, value)

/-- The templates of a document; the last definition of a key counts. -/
def fileMessages (b : Bundle) (content : Text) : Table Text Text :=
  Table.ofList ((b.entriesInScope content).map fun (_, stripped, value) => (stripped, value))

/-- The keys of a document that were defined before in it, as written, for each such definition. -/
def repeatedKeys : (seen : List Text) → List (Text × Text × Text) → List Text
  | _, [] => []
  | seen, (key, stripped, _) :: rest =>
    let others := repeatedKeys (stripped :: seen) rest
    if stripped ∈ seen then key :: others else others

/-- Take the templates of one more file to those gathered so far. -/
def mergeMessages (policy : OverridePolicy) (gathered file : Table Text Text) : Table Text Text :=
  match policy with
  | .lastRootWins => gathered.insertAll file.entries
  | .firstRootWins => file.entries.foldl (fun t e => t.insertNew e.1 e.2) gathered

/-! ## Section 2: One locale -/

/-- Take the resource file under one root to what was gathered so far. -/
def loadFile (b : Bundle) (files : FileTree) (tag : LocaleTag) (gathered : LocaleMessages)
    (root : Path) : Logged BundleError LocaleMessages :=
  let path := b.resourcePath root tag
  match readResource files path with
  | .error e => ⟨[], .error e⟩
  | .ok none => ⟨[], .ok gathered⟩
  | .ok (some content) =>
    ⟨(repeatedKeys [] (b.entriesInScope content)).map fun key =>
        .warning s!"Duplicate definition for: {key.str} in locale {tag.str} ({path.quoted})",
      .ok { gathered with
        messages := mergeMessages b.overridePolicy gathered.messages (b.fileMessages content)
        sources := gathered.sources ++ [path] }⟩

/-- The messages of a locale from all roots. -/
def loadLocale (b : Bundle) (files : FileTree) (tag : LocaleTag) :
    Logged BundleError LocaleMessages :=
  b.roots.foldlM (b.loadFile files tag) (LocaleMessages.empty tag)

/-! ## Section 3: The bundle -/

/-- The messages of the main locale, which must have a file and a key in scope. -/
def loadMain (b : Bundle) (files : FileTree) : Logged BundleError LocaleMessages := do
  let main ← b.loadLocale files b.mainLocale
  if !main.isPresent then
    Logged.fail (.resourceNotFound b.name b.mainLocale.text (b.resourceFile b.mainLocale) b.roots)
  else if main.messages.isEmpty then
    Logged.fail (.noKeysInScope b.keyPrefix b.mainLocale.text)
  else pure main

/-- The messages of a secondary locale; one without files is logged. -/
def loadSecondary (b : Bundle) (files : FileTree) (tag : LocaleTag) :
    Logged BundleError LocaleMessages := do
  let messages ← b.loadLocale files tag
  if !messages.isPresent then
    Logged.log (.warning s!"No resource file for locale {tag.str} of bundle '{b.name.str}'")
  pure messages

/-- The messages of every tracked locale, the main one first. -/
def loadAll (b : Bundle) (files : FileTree) :
    Logged BundleError (Table LocaleTag LocaleMessages) := do
  let main ← b.loadMain files
  -- the first locale that cannot be read ends the loading
  let others ← b.secondaryLocales.mapM (b.loadSecondary files)
  let maps := Table.ofList ((main :: others).map fun m => (m.locale, m))
  Logged.log (.information s!"Loaded {maps.size} locales for bundle '{b.name.str}'")
  pure maps

/-- A bundle is loaded when the main locale and then every other locale can be. -/
theorem loadAll_result (b : Bundle) (files : FileTree) :
    (b.loadAll files).result = (do
      let main ← (b.loadMain files).result
      let others ← (b.secondaryLocales.mapM (b.loadSecondary files)).result
      pure (Table.ofList ((main :: others).map fun m => (m.locale, m)))) := by
  simp only [loadAll, Logged.result_bind, Logged.result_log, Logged.result_pure]
  rfl

end Bundle

end MessageCatalog
