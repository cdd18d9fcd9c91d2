import MessageCatalog.Template.Parser

/-!
# Signatures

The signature of a template lists the type of each argument up to the highest index mentioned. A
type named once holds for every mention of its index; two different types at one index make the
signature fail. An index below the highest one that no placeholder mentions is a `string`.

## Main statements

* `length_place` : placing a placeholder leaves room for its index
-/

namespace MessageCatalog

/-- The argument types of a message, by index. -/
structure Signature where
  types : List ArgType
  deriving DecidableEq, Repr, Inhabited

namespace Signature

/-- The number of arguments. -/
def size (s : Signature) : Nat := s.types.length

/-- The type at an index. -/
def get? (s : Signature) (index : Nat) : Option ArgType := s.types[index]?

/-- Give an untyped argument a type; an argument that has one keeps it. The flag tells whether the
signature changed. -/
def refine (s : Signature) (index : Nat) (type : ArgType) : Signature × Bool :=
  if s.get? index = some .untyped ∧ type.isConcrete then (⟨s.types.set index type⟩, true)
  else (s, false)

/-- The types between brackets, separated by commas. -/
def render (s : Signature) : String :=
  "[" ++ ", ".intercalate (s.types.map ArgType.name) ++ "]"

end Signature

namespace Template

/-! ## Section 1: Deriving a signature -/

/-- Take one more placeholder into the types seen so far. -/
def place (slots : List (Option ArgType)) (p : Placeholder) :
    Except TemplateError (List (Option ArgType)) :=
  let slots := slots.rightpad (p.index + 1) none
  match slots[p.index]?.join with
  | none => .ok (slots.set p.index (some p.argType))
  | some existing =>
    -- an untyped mention gives way to any other one
    if existing = .untyped then .ok (slots.set p.index (some p.argType))
    else if p.argType = .untyped ∨ p.argType = existing then .ok slots
    else .error (.ambiguousType p.index existing p.argType)

/-- Placing a placeholder leaves room for its index and for all before it. -/
theorem length_place {slots slots' : List (Option ArgType)} {p : Placeholder}
    (h : place slots p = .ok slots') : slots'.length = max slots.length (p.index + 1) := by
  unfold place at h
  simp only [] at h
  have hpad : (slots.rightpad (p.index + 1) none).length = max slots.length (p.index + 1) := by
    simp [List.rightpad]
    omega
  split at h
  · obtain rfl := Except.ok.inj h
    simpa using hpad
  · split at h
    · obtain rfl := Except.ok.inj h
      simpa using hpad
    · split at h
      · obtain rfl := Except.ok.inj h
        exact hpad
      · simp at h

/-- The signature that some placeholders give together. -/
def signatureOf (placeholders : List Placeholder) : Except TemplateError Signature :=
  (placeholders.foldlM place []).map fun slots => ⟨slots.map (·.getD .string)⟩

/-- The signature of a template. -/
def signature (t : Template) : Except TemplateError Signature := signatureOf t.placeholders

/-- Read a template and derive its signature. -/
def parseSignature (source : Text) : Except TemplateError Signature :=
  parse source >>= signature

end Template

end MessageCatalog
