import MessageCatalog.Accessor.Plan
import MessageCatalog.Text.Quoted

/-!
# Generated source

The Rust source of the accessors of a bundle, line by line. Every text that comes from the bundle
stands in it as a quoted text, so that no message can break a line or leave its quotes.

## Main statements

* `length_indent` : indenting keeps the number of lines
-/

namespace MessageCatalog.Accessor

open Text

/-! ## Section 1: Lines -/

/-- Lines one level further in; an empty line stays empty. -/
def indent (lines : List String) : List String :=
  lines.map fun line => if line.isEmpty then line else "    " ++ line

/-- Indenting keeps the number of lines. -/
@[simp]
theorem length_indent (lines : List String) : (indent lines).length = lines.length := by
  simp [indent]

/-- A line that ends with an opening brace. -/
def opening (line : String) : String := line ++ " \x7b"

/-- A line that closes a brace. -/
def closing : String := "\x7d"

/-- Lines between braces after a head. -/
def block (head : String) (body : List String) : List String :=
  opening head :: indent body ++ [closing]

/-- Lines of a list constant. -/
def listConstant (head : String) (items : List String) : List String :=
  s!"{head} = &[" :: indent (items.map (· ++ ",")) ++ ["];"]

/-! ## Section 2: The bundle -/

/-- The constants of the bundle: its main locale, its locales and the keys with accessors. -/
def bundleLines (specs : MessageSpecs) (plans : List Plan) : List String :=
  ["/// Canonical locale of the bundle.",
    s!"pub const MAIN_LOCALE: &str = {specs.mainLocale.text.quoted};",
    "",
    "/// Every locale the bundle tracks, in tag order."] ++
  listConstant "pub const LOCALES: &[&str]" (specs.locales.map fun tag => tag.text.quoted) ++
  ["",
    "/// Prefix-stripped keys that have an accessor, in key order."] ++
  listConstant "pub const KEYS: &[&str]" (plans.map fun plan => plan.key.quoted)

/-! ## Section 3: One accessor -/

/-- The type that a setter takes, and the value that it stores. -/
def setterTypes (runtime : String) : ArgType → String × String
  | .untyped => (s!"{runtime}::MessageArg", "value.into()")
  | .string => ("::std::string::String", s!"{runtime}::MessageArg::Text(value.into())")
  | .number | .choice => (s!"{runtime}::Number", s!"{runtime}::MessageArg::Number(value.into())")
  | .date => (s!"{runtime}::DateTimeValue", s!"{runtime}::MessageArg::Date(value.into())")

/-- The setter of one argument. -/
def setterLines (runtime : String) (index : Nat) (type : ArgType) : List String :=
  let (parameter, value) := setterTypes runtime type
  s!"/// Sets argument {index} (`{type.name}`)." ::
    block s!"pub fn arg{index}(mut self, value: impl ::core::convert::Into<{parameter}>) -> Self"
      [s!"self.args[{index}] = {value};", "self"] ++
    [""]

/-- The method that reads a message back. -/
def readerLines (runtime typeName : String) (arity : Nat) : List String :=
  ["/// Recovers the arguments of a message formatted for `locale`.",
    "///",
    "/// The result has one entry per argument of the signature; entries",
    "/// the locale's template omits are `MessageArg::Missing`.",
    "///",
    "/// # Errors",
    "///",
    "/// Fails when `text` does not follow the locale's template.",
    "pub fn parse("] ++
  indent ["&self,", s!"locale: &{runtime}::LocaleTag,", "text: &str,"] ++
  block
    s!") -> ::core::result::Result<::std::vec::Vec<{runtime}::MessageArg>, {runtime}::FormatError>"
    [s!"let mut args = {runtime}::parse({typeName}::TEMPLATES, MAIN_LOCALE, locale, text)?;",
      s!"args.resize({arity}, {runtime}::MessageArg::Missing);",
      "::core::result::Result::Ok(args)"]

/-- The head of a method that formats for a locale. -/
def formatterHead (runtime : String) : String :=
  s!"pub fn with_locale(&self, locale: &{runtime}::LocaleTag) -> ::std::string::String"

/-- The direct formatter of a message without arguments. -/
def directLines (runtime : String) : List String :=
  ["", "/// Formats this message for `locale`.", "#[must_use]"] ++
    block (formatterHead runtime) ["self.format().with_locale(locale)"]

/-- The items of one accessor. -/
def accessorLines (runtime : String) (plan : Plan) : List String :=
  let typeName := plan.typeName.str
  let builder := plan.builderName.str
  let arity := plan.signature.size
  let summary : Text :=
    '`' :: plan.key ++ "`: ".toList ++ plan.mainTemplate
  let detail : Text := "Accessor for key `".toList ++ plan.fullKey ++ "`.".toList
  [s!"#[doc = {summary.quoted}]",
    s!"pub const {plan.constant.str}: {typeName} = {typeName};",
    "",
    s!"#[doc = {detail.quoted}]",
    "///",
    s!"/// Signature: `{plan.signature.render}`.",
    "#[derive(Debug, Clone, Copy, PartialEq, Eq, Hash)]",
    s!"pub struct {typeName};",
    ""] ++
  block s!"impl {typeName}"
    (["/// Full resource key.",
      s!"pub const KEY: &'static str = {plan.fullKey.quoted};",
      "/// Prefix-stripped key.",
      s!"pub const NAME: &'static str = {plan.key.quoted};",
      "/// Templates per locale tag, in tag order."] ++
    listConstant "pub const TEMPLATES: &'static [(&'static str, &'static str)]"
      (plan.templates.map fun (tag, template) => s!"({tag.quoted}, {template.quoted})") ++
    ["", "/// Starts formatting this message."] ++
    block s!"pub fn format(&self) -> {builder}"
      (block builder [s!"args: ::std::vec![{runtime}::MessageArg::Missing; {arity}],"]) ++
    (if arity = 0 then directLines runtime else []) ++
    [""] ++ readerLines runtime typeName arity) ++
  ["",
    s!"/// Argument builder for [`{typeName}`].",
    "#[derive(Debug, Clone, PartialEq)]",
    "#[must_use]"] ++
  block s!"pub struct {builder}" [s!"args: ::std::vec::Vec<{runtime}::MessageArg>,"] ++
  [""] ++
  block s!"impl {builder}"
    (plan.signature.types.zipIdx.flatMap (fun (type, index) => setterLines runtime index type) ++
    ["/// Formats the message for `locale`.", "#[must_use]"] ++
    block (formatterHead runtime)
      [s!"{runtime}::render({typeName}::TEMPLATES, MAIN_LOCALE, locale, &self.args)"])

/-! ## Section 4: The whole -/

/-- The items of a bundle: its constants, and its accessors with an empty line before each. -/
def itemLines (specs : MessageSpecs) (plans : List Plan) (options : Options) : List String :=
  bundleLines specs plans ++
    plans.flatMap fun plan => "" :: accessorLines options.runtimePath.str plan

/-- The lines of the source. -/
def sourceLines (specs : MessageSpecs) (plans : List Plan) (options : Options) : List String :=
  let summary : Text :=
    "Typed accessors for message bundle `".toList ++ specs.bundleName ++ "`.".toList
  [s!"// @generated by msgspec-codegen from bundle {specs.bundleName.quoted}. DO NOT EDIT.", ""] ++
    match options.shape with
    | .flat => itemLines specs plans options
    | .namespaced =>
      s!"#[doc = {summary.quoted}]" ::
        block s!"pub mod {options.moduleName.str}" (itemLines specs plans options)

/-- The source of planned accessors: its lines, each with a line feed at its end. -/
def renderSource (specs : MessageSpecs) (plans : List Plan) (options : Options) : String :=
  String.join ((sourceLines specs plans options).map (· ++ "\n"))

/-- What a run generates: the source, the keys with accessors, and the skipped keys in key order. -/
structure Generated where
  source : String
  accessors : List Text
  skipped : List Skipped

/-- Generate the source of a bundle with options that were checked. Skipped messages are logged as
they are skipped. -/
def generate (options : Options) (specs : MessageSpecs) : Logged GeneratorError Generated := do
  let (plans, skipped) := planAll specs
  ⟨skipped.map Skipped.log, .ok ()⟩
  if plans.isEmpty then Logged.fail (.emptyBundle specs.bundleName)
  else do
    Logged.log (.information
      s!"Generated {plans.length} accessors for bundle '{specs.bundleName.str}' ({skipped.length} skipped)")
    pure
      { source := renderSource specs plans options
        accessors := plans.map Plan.key
        skipped := skipped.mergeSort fun a b => (compare a.key b.key).isLE }

end MessageCatalog.Accessor
