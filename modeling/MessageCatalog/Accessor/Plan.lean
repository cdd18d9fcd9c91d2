import MessageCatalog.Accessor.Naming
import MessageCatalog.Log
import MessageCatalog.Specs

/-!
# Planning accessors

Every message that can have an accessor gets a constant, a type and a builder type. All these names
share one space: constants are claimed first, in key order, and a type whose name is taken falls
back to the name with `Message` after it. A message that finds no name is skipped with a reason.

## Main statements

* `not_mem_of_isFree` : a free type name and its builder are not among the names taken
-/

namespace MessageCatalog

open Text

namespace Accessor

/-! ## Section 1: Options -/

/-- Where the accessors stand: at the top level, or in a module of their own. -/
inductive Shape where
  | flat
  | namespaced
  deriving DecidableEq, Repr

namespace Shape

/-- The name of a shape in configurations. -/
def name : Shape → String
  | .flat => "flat"
  | .namespaced => "namespace"

/-- The shape of a name in configurations. -/
def ofName? : String → Option Shape
  | "flat" => some .flat
  | "namespace" => some .namespaced
  | _ => none

end Shape

/-- How source is generated: its shape, the name of its module, and the path of the formatting
library in it. -/
structure Options where
  shape : Shape
  moduleName : Text
  runtimePath : Text
  deriving DecidableEq, Repr

namespace Options

/-- A module named `messages`. -/
def standard : Options := ⟨.namespaced, "messages".toList, "::msgspec_runtime".toList⟩

end Options

/-- Why no source can be generated. -/
inductive GeneratorError where
  /-- No message is left. -/
  | emptyBundle (name : Text)
  | unknownShape (text : Text)
  | invalidRuntimePath (path : Text)
  | invalidModuleName (name : Text)
  deriving DecidableEq, Repr

/-- The text of a generator error. -/
def GeneratorError.message : GeneratorError → String
  | .emptyBundle name => s!"No generatable keys in bundle '{name.str}'"
  | .unknownShape text =>
    s!"Invalid generator options: unknown artifact shape '{text.str}', expected 'flat' or 'namespace'"
  | .invalidRuntimePath path =>
    s!"Invalid generator options: runtime path '{path.str}' is not a Rust path"
  | .invalidModuleName name =>
    s!"Invalid generator options: namespace '{name.str}' is not a valid module name"

/-- Read a shape as it is given on the command line. -/
def Shape.parse (text : Text) : Except GeneratorError Shape :=
  let word := lower (trim text)
  if word = "flat".toList then .ok .flat
  else if word = "namespace".toList ∨ word = "module".toList then .ok .namespaced
  else .error (.unknownShape word)

/-- Check the options: the runtime path, and the module name where it is used. -/
def Options.check (o : Options) : Except GeneratorError Unit :=
  if !isPath o.runtimePath then .error (.invalidRuntimePath o.runtimePath)
  else if o.shape = .namespaced ∧ !isModuleName o.moduleName then
    .error (.invalidModuleName o.moduleName)
  else .ok ()

/-! ## Section 2: Skipped messages -/

/-- Why a message has no accessor. -/
inductive SkipReason where
  | noSignature
  | localeUnreadable
  | noMainTemplate
  | unusableConstant (constant : Text)
  | constantTaken (constant : Text)
  | noTypeName (constant : Text)
  | typeTaken (name : Text)
  deriving DecidableEq, Repr

/-- The text of a reason. -/
def SkipReason.message : SkipReason → String
  | .noSignature => "main template does not parse"
  | .localeUnreadable => "a locale template does not parse"
  | .noMainTemplate => "no main locale template"
  | .unusableConstant constant => s!"identifier '{constant.str}' is not usable"
  | .constantTaken constant => s!"identifier '{constant.str}' is already used by an earlier key"
  | .noTypeName constant => s!"no type name can be derived from '{constant.str}'"
  | .typeTaken name => s!"type name '{name.str}' is already used"

/-- A message without an accessor. -/
structure Skipped where
  key : Text
  reason : SkipReason
  deriving DecidableEq, Repr

/-- The log entry of a skipped message. -/
def Skipped.log (s : Skipped) : LogEntry :=
  .warning s!"Skipping key {s.key.str}: {s.reason.message}"

/-! ## Section 3: Constants -/

/-- A message with its constant. -/
structure Candidate where
  spec : MessageSpec
  signature : Signature
  mainTemplate : Text
  constant : Text

/-- The constant that a message asks for, given the names taken so far. -/
def claimConstant (specs : MessageSpecs) (taken : List Text) (spec : MessageSpec) :
    Except SkipReason Candidate :=
  match spec.signature with
  | none => .error .noSignature
  | some signature =>
    if specs.hasParseError spec.key then .error .localeUnreadable
    else
      match spec.templates.get? specs.mainLocale with
      | none => .error .noMainTemplate
      | some mainTemplate =>
        let constant := constantName spec.key
        if !isUsableConstant constant then .error (.unusableConstant constant)
        else if constant ∈ taken then .error (.constantTaken constant)
        else .ok ⟨spec, signature, mainTemplate, constant⟩

/-- Claim constants in turn; gives the candidates, the skipped messages and the names taken. -/
def claimConstants (specs : MessageSpecs) :
    (taken : List Text) → List MessageSpec → List Candidate × List Skipped × List Text
  | taken, [] => ([], [], taken)
  | taken, spec :: rest =>
    match claimConstant specs taken spec with
    | .ok candidate =>
      let (candidates, skipped, taken) := claimConstants specs (candidate.constant :: taken) rest
      (candidate :: candidates, skipped, taken)
    | .error reason =>
      let (candidates, skipped, taken) := claimConstants specs taken rest
      (candidates, ⟨spec.key, reason⟩ :: skipped, taken)

/-! ## Section 4: Types -/

/-- An accessor with its names. -/
structure Plan where
  key : Text
  fullKey : Text
  constant : Text
  typeName : Text
  builderName : Text
  signature : Signature
  mainTemplate : Text
  templates : List (Text × Text)
  deriving DecidableEq, Repr

/-- The builder type of a type. -/
def builderOf (typeName : Text) : Text := typeName ++ "Builder".toList

/-- Whether a type name and its builder's are both free. -/
def isFree (taken : List Text) (typeName : Text) : Bool :=
  !taken.contains typeName && !taken.contains (builderOf typeName)

/-- The type name of a constant, given the names taken so far. -/
def claimType (taken : List Text) (constant : Text) : Except SkipReason Text :=
  match typeName? constant with
  | none => .error (.noTypeName constant)
  | some base =>
    let fallback := base ++ "Message".toList
    if isFree taken base then .ok base
    else if isFree taken fallback then .ok fallback
    else .error (.typeTaken base)

/-- The plan of a candidate that has got its type name. -/
def Candidate.plan (c : Candidate) (keyPrefix typeName : Text) : Plan where
  key := c.spec.key
  fullKey := keyPrefix ++ c.spec.key
  constant := c.constant
  typeName := typeName
  builderName := builderOf typeName
  signature := c.signature
  mainTemplate := c.mainTemplate
  templates := c.spec.templates.entries.map fun (tag, template) => (tag.text, template)

/-- Claim types in turn; gives the plans and the skipped messages. -/
def claimTypes (keyPrefix : Text) :
    (taken : List Text) → List Candidate → List Plan × List Skipped
  | _, [] => ([], [])
  | taken, candidate :: rest =>
    match claimType taken candidate.constant with
    | .ok typeName =>
      let (plans, skipped) := claimTypes keyPrefix (builderOf typeName :: typeName :: taken) rest
      (candidate.plan keyPrefix typeName :: plans, skipped)
    | .error reason =>
      let (plans, skipped) := claimTypes keyPrefix taken rest
      (plans, ⟨candidate.spec.key, reason⟩ :: skipped)

/-- The plans for the messages of a bundle, in key order, and the skipped messages in the order in
which they were skipped. -/
def planAll (specs : MessageSpecs) : List Plan × List Skipped :=
  -- every constant is claimed before the first type
  let (candidates, first, taken) := claimConstants specs reservedConstants specs.specs.values
  let (plans, second) := claimTypes specs.keyPrefix taken candidates
  (plans, first ++ second)

/-- A free type name and its builder's are not among the names taken. -/
theorem not_mem_of_isFree {taken : List Text} {typeName : Text} (h : isFree taken typeName = true) :
    typeName ∉ taken ∧ builderOf typeName ∉ taken := by
  simpa [isFree] using h

end Accessor

end MessageCatalog
