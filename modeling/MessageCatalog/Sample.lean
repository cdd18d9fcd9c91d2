import MessageCatalog.Accessor.Call
import MessageCatalog.Validation

/-!
# A sample bundle

Six messages in three languages, as they stand in resource files, with the accessors that are
generated for them.
-/

namespace MessageCatalog.Sample

open Accessor

/-! ## Section 1: Resources -/

/-- The German messages. -/
def german : List String := [
  "# Beispiel-Bundle",
  "sample.app.title=msgspec-Beispiel",
  "sample.greeting=Hallo \x7b0\x7d!",
  "sample.inbox.summary=\x7b0\x7d, Sie haben \x7b1,choice,0#keine Nachrichten|1#eine Nachricht|1<\x7b1,number,integer\x7d Nachrichten\x7d.",
  "sample.order.total=Bestellung \x7b0,number,integer\x7d kostet \x7b1,number,currency\x7d.",
  "sample.report.date=Bericht erstellt am \x7b0,date,long\x7d.",
  "sample.upload.progress=Hochladen zu \x7b0,number,percent\x7d abgeschlossen"]

/-- The English messages. -/
def english : List String := [
  "# Sample bundle, main locale",
  "sample.app.title=msgspec sample",
  "sample.greeting=Hello \x7b0\x7d!",
  "sample.inbox.summary=\x7b0\x7d, you have \x7b1,choice,0#no messages|1#one message|1<\x7b1,number,integer\x7d messages\x7d.",
  "sample.order.total=Order \x7b0,number,integer\x7d costs \x7b1,number,currency\x7d.",
  "sample.report.date=Report generated on \x7b0,date,long\x7d.",
  "sample.upload.progress=Upload \x7b0,number,percent\x7d complete"]

/-- The French messages. -/
def french : List String := [
  "# Bundle d'exemple",
  "sample.app.title=Exemple msgspec",
  "sample.greeting=Bonjour \x7b0\x7d !",
  "sample.inbox.summary=\x7b0\x7d, vous avez \x7b1,choice,0#aucun message|1#un message|1<\x7b1,number,integer\x7d messages\x7d.",
  "sample.order.total=La commande \x7b0,number,integer\x7d coûte \x7b1,number,currency\x7d.",
  "sample.report.date=Rapport généré le \x7b0,date,long\x7d.",
  "sample.upload.progress=Téléversement terminé à \x7b0,number,percent\x7d"]

/-- A resource file of some lines. -/
def resource (lines : List String) : FileEntry :=
  .file (Text.Utf8.encode ("\n".intercalate lines ++ "\n").toList)

/-- The place of a file in the directory `resources`, which is at the root. -/
def place (name : String) : Place := ["resources".toList, name.toList]

/-- The files of the sample. -/
def files : FileTree := ⟨Table.ofList [
  (["resources".toList], .directory),
  (place "messages_de_DE.properties", resource german),
  (place "messages_en_GB.properties", resource english),
  (place "messages_fr_FR.properties", resource french)], []⟩

/-! ## Section 2: Accessors -/

/-- The bundle of the sample. -/
def definition : BundleDefinition where
  name := "messages".toList
  keyPrefix := "sample".toList
  mainLocale := some "en-GB".toList
  locales := ["fr-FR".toList, "de-DE".toList]
  roots := ["resources".toList]
  overridePolicy := .lastRootWins

/-- The specifications of the sample. -/
def specs? : Except BundleError MessageSpecs := do
  let bundle ← definition.build
  (bundle.loadAndValidate files).result

/-- The accessors of the sample, in key order. -/
def accessors : List Plan :=
  match specs? with
  | .ok specs => (planAll specs).1
  | .error _ => []

/-- The main locale of the sample. -/
def mainLocale : Text := "en-GB".toList

/-- The accessor of a key. -/
def accessor? (key : Text) : Option Plan := accessors.find? fun plan => plan.key == key

/-- Begin a message of the sample. -/
def call? (key : Text) : Option Call := (accessor? key).map fun plan => .start plan mainLocale

/-- What an inbox says to a user about unread messages, on one line. -/
def inboxLine? (tag : LocaleTag) (user : Text) (unread : Nat) : Option (Text × List LogEntry) :=
  (call? "inbox.summary".toList).map fun call =>
    ((call.set 0 (.text user)).set 1 (.number (.ofInt unread))).render tag

end MessageCatalog.Sample
