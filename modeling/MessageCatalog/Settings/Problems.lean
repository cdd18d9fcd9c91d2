import MessageCatalog.Settings.Basic

/-!
# Rules for settings

The rules that settings have to keep before a run, and the problems of those that break them. Every
problem is found, in the order of the places where they stand.

## Main statements

* `tagProblem?_eq_none_iff` : a tag has no problem exactly when it can be read
* `bundle_problems_eq_nil_iff` : when the settings of a bundle keep all rules
-/

namespace MessageCatalog

open Text

/-- A rule that some settings break: where, which one, and what is wrong. -/
structure SettingProblem where
  place : String
  rule : String
  message : String
  deriving DecidableEq, Repr

/-- The problem of a place and a rule, if there is one. -/
def problemAt (place rule : String) (message : Option String) : List SettingProblem :=
  (message.map fun message => ⟨place, rule, message⟩).toList

/-- Without a message there is no problem. -/
theorem problemAt_eq_nil_iff {place rule : String} {message : Option String} :
    problemAt place rule message = [] ↔ message = none := by
  cases message <;> simp [problemAt]

/-- The message about a condition that holds and should not. -/
def messageIf (condition : Bool) (message : String) : Option String :=
  if condition then some message else none

/-- There is no message exactly when the condition does not hold. -/
theorem messageIf_eq_none_iff {condition : Bool} {message : String} :
    messageIf condition message = none ↔ condition = false := by
  cases condition <;> simp [messageIf]

/-- What is wrong with a locale tag. -/
def tagProblem? (tag : Text) : Option String :=
  match BundleDefinition.readTag tag with
  | .ok _ => none
  | .error e => some e.message

/-- A tag has no problem exactly when it can be read. -/
theorem tagProblem?_eq_none_iff {tag : Text} :
    tagProblem? tag = none ↔ ∃ t, BundleDefinition.readTag tag = .ok t := by
  unfold tagProblem?
  split <;> simp_all

/-- The problems of the configured bundle. Of several locales that are not well formed the first one
is reported. -/
def BundleSettings.problems (b : BundleSettings) : List SettingProblem :=
  problemAt "bundle.locales" "invalid_locale_tag" (b.locales.findSome? tagProblem?) ++
    problemAt "bundle.main_locale" "invalid_locale_tag" (tagProblem? b.mainLocale) ++
    problemAt "bundle.name" "blank"
      (messageIf (trim b.name).isEmpty "bundle.name cannot be empty") ++
    problemAt "bundle.resources" "length"
      (messageIf b.resources.isEmpty "bundle.resources must list at least one root")

/-- The problems of the generator: its options, and the place of its output. -/
def GeneratorSettings.problems (g : GeneratorSettings) : List SettingProblem :=
  problemAt "generator.__all__" "invalid_generator_options"
    (match g.options.check with
      | .ok () => none
      | .error e => some e.message) ++
    problemAt "generator.output" "empty_output_path"
      (messageIf g.output.isEmpty "generator.output cannot be empty")

/-- The problems of logging. -/
def LoggingSettings.problems (l : LoggingSettings) : List SettingProblem :=
  problemAt "logging" "blank_log_level"
    (messageIf (trim l.level).isEmpty "logging.level cannot be empty")

/-- The problems of some settings. -/
def Settings.problems (s : Settings) : List SettingProblem :=
  s.bundle.problems ++ s.generator.problems ++ s.logging.problems

/-- The settings of a bundle keep all rules exactly when its name is not blank, it has a root, and
all its tags can be read. -/
theorem bundle_problems_eq_nil_iff {b : BundleSettings} :
    b.problems = [] ↔
      trim b.name ≠ [] ∧ b.resources ≠ [] ∧
        ∀ tag ∈ b.mainLocale :: b.locales, ∃ t, BundleDefinition.readTag tag = .ok t := by
  simp only [BundleSettings.problems, List.append_eq_nil_iff,
    problemAt_eq_nil_iff, messageIf_eq_none_iff, List.findSome?_eq_none_iff,
    tagProblem?_eq_none_iff, List.isEmpty_eq_false_iff, List.forall_mem_cons]
  grind

end MessageCatalog
