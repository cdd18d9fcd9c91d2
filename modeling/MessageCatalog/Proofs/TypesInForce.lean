import MessageCatalog.Validation
import Mathlib.Data.List.Basic

/-!
# The types in force

The type in force at an index is the first concrete one among the types that the main signature and
then the signatures of the locales taken so far give to it. Only signatures with as many arguments
as the main one have a say. This module shows that the comparison of one more signature with those
types finds exactly the indices where a concrete type differs, and that it leaves the types that are
in force afterwards.

## Main statements

* `compareSignatures_inForce` : one comparison against the types in force
* `inForce_append_singleton` : the types in force after one more signature
* `inForce_nil` : before the first locale they are the types of the main signature
-/

namespace MessageCatalog

namespace Validation

/-! ## Section 1: The type in force -/

/-- **The type in force** at an index: the first concrete one that the main signature gives to it,
or after it an earlier signature with as many arguments. -/
def typeInForce? (main : Signature) (earlier : List Signature) (index : Nat) : Option ArgType :=
  ((main :: earlier.filter fun s => s.size == main.size).filterMap (·.get? index)).find?
    ArgType.isConcrete

/-- The types in force at all indices of the main signature; where none is, the argument is
untyped. -/
def inForce (main : Signature) (earlier : List Signature) : Signature :=
  ⟨(List.range main.size).map fun index => (typeInForce? main earlier index).getD .untyped⟩

/-- One problem for every index at which `found` has a concrete type other than a concrete one in
force. -/
def typeMismatches (key : Text) (tag : LocaleTag) (inForce found : Signature) : List SpecError :=
  (inForce.types.zip found.types).zipIdx.filterMap fun ((expected, type), index) =>
    if expected.isConcrete ∧ type.isConcrete ∧ expected ≠ type then
      some (typeMismatch key tag index expected type)
    else none

@[simp]
theorem size_inForce (main : Signature) (earlier : List Signature) :
    (inForce main earlier).size = main.size := by
  simp [inForce, Signature.size]

theorem eq_untyped_of_isConcrete {type : ArgType} (h : type.isConcrete = false) :
    type = .untyped := by
  cases type with
  | untyped => rfl
  | string => cases h
  | number => cases h
  | date => cases h
  | choice => cases h

/-- A type in force is concrete. -/
theorem isConcrete_of_typeInForce? {main : Signature} {earlier : List Signature} {index : Nat}
    {type : ArgType} (h : typeInForce? main earlier index = some type) :
    type.isConcrete = true :=
  List.find?_some h

private theorem getD_find?_isConcrete (type : ArgType) :
    (([type].find? ArgType.isConcrete).getD .untyped) = type := by
  cases type <;> rfl

/-- **The main signature keeps its concrete types.** -/
theorem typeInForce?_of_main {main : Signature} {type : ArgType} {index : Nat}
    (h : main.get? index = some type) (htype : type.isConcrete = true) (earlier : List Signature) :
    typeInForce? main earlier index = some type := by
  simp [typeInForce?, h, htype]

/-- Before the first locale the types of the main signature are in force. -/
theorem inForce_nil (main : Signature) : inForce main [] = main := by
  obtain ⟨types⟩ := main
  refine congrArg Signature.mk (List.ext_getElem (by simp [Signature.size]) ?_)
  intro i hi hi'
  have hget : (Signature.mk types).get? i = some types[i] := List.getElem?_eq_getElem hi'
  simp only [List.getElem_map, List.getElem_range, typeInForce?, List.filter_nil,
    List.filterMap_cons, hget, List.filterMap_nil]
  exact getD_find?_isConcrete _

/-! ## Section 2: One more locale -/

/-- The type in force after a locale that gives `found`: a concrete one stays. -/
def settledType (expected found : ArgType) : ArgType :=
  if expected.isConcrete then expected else found

/-- The types in force after a locale with the signature `found`. -/
def settledBy (inForce found : Signature) : Signature :=
  ⟨List.zipWith settledType inForce.types found.types⟩

/-- A locale that agrees with the type in force, or leaves it open, settles nothing. -/
theorem settledType_of_agree {expected found : ArgType}
    (h : (!found.isConcrete || expected = found) = true) : settledType expected found = expected := by
  unfold settledType
  cases hexpected : expected.isConcrete with
  | true => rfl
  | false =>
    obtain rfl : expected = .untyped := eq_untyped_of_isConcrete hexpected
    -- an open type that stays open: the locale leaves it open as well
    rcases Bool.or_eq_true_iff.mp h with hfound | heq
    · exact eq_untyped_of_isConcrete (by simpa using hfound)
    · exact (of_decide_eq_true heq).symm

/-- A signature with as many arguments as the main one has a say at its indices. -/
theorem typeInForce?_append_of_size {main found : Signature} {earlier : List Signature}
    {index : Nat} (h : found.size = main.size) :
    typeInForce? main (earlier ++ [found]) index =
      (typeInForce? main earlier index).or ((found.get? index).filter ArgType.isConcrete) := by
  have hfilter : (earlier ++ [found]).filter (fun s => s.size == main.size) =
      earlier.filter (fun s => s.size == main.size) ++ [found] := by
    simp [h]
  rw [typeInForce?, hfilter, ← List.cons_append, List.filterMap_append, List.find?_append]
  congr 1
  cases hget : found.get? index with
  | none => simp [hget]
  | some type => cases htype : type.isConcrete <;> simp [hget, htype, Option.filter]

/-- A signature with another number of arguments has none. -/
theorem typeInForce?_append_of_size_ne {main found : Signature} {earlier : List Signature}
    {index : Nat} (h : found.size ≠ main.size) :
    typeInForce? main (earlier ++ [found]) index = typeInForce? main earlier index := by
  simp [typeInForce?, h]

/-- **The types in force after one more signature.** -/
theorem inForce_append_singleton (main found : Signature) (earlier : List Signature) :
    inForce main (earlier ++ [found]) =
      if found.size = main.size then settledBy (inForce main earlier) found
      else inForce main earlier := by
  split
  · rename_i h
    refine congrArg Signature.mk (List.ext_getElem ?_ ?_)
    · simp only [Signature.size] at h
      simp [inForce, Signature.size, h]
    · intro i hi hi'
      have hfound : i < found.types.length := by
        have hmain : i < main.size := by simpa using hi
        exact Nat.lt_of_lt_of_eq hmain h.symm
      have hget : found.get? i = some found.types[i] := List.getElem?_eq_getElem hfound
      simp only [inForce, List.getElem_zipWith, List.getElem_map, List.getElem_range,
        typeInForce?_append_of_size h, hget]
      -- either a type was in force already, or the locale has the first say
      cases hprev : typeInForce? main earlier i with
      | some type => simp [settledType, isConcrete_of_typeInForce? hprev]
      | none =>
        have huntyped : ArgType.untyped.isConcrete = false := rfl
        cases htype : found.types[i].isConcrete with
        | true => simp [settledType, htype, huntyped, Option.filter]
        | false =>
          have hopen : found.types[i] = .untyped := eq_untyped_of_isConcrete htype
          simp [settledType, hopen, huntyped, Option.filter]
  · rename_i h
    simp [inForce, typeInForce?_append_of_size_ne h]

/-! ## Section 3: The comparison -/

/-- An index is settled when it is untyped and the locale gives it a concrete type. -/
private theorem refine_append {type : ArgType} (htype : type.isConcrete = true)
    (before rest : List ArgType) :
    Signature.refine ⟨before ++ .untyped :: rest⟩ before.length type =
      (⟨before ++ type :: rest⟩, true) := by
  simp [Signature.refine, Signature.get?, htype]

/-- An index with a concrete type is not settled again. -/
private theorem refine_append_of_concrete {expected : ArgType} (h : expected.isConcrete = true)
    (before rest : List ArgType) (type : ArgType) :
    Signature.refine ⟨before ++ expected :: rest⟩ before.length type =
      (⟨before ++ expected :: rest⟩, false) := by
  have hne : expected ≠ .untyped := by
    rintro rfl
    cases h
  simp [Signature.refine, Signature.get?, hne]

/-- The comparison from an index on settles the types from there on and finds the mismatches among
them; the types before stay. -/
private theorem compareTypes_append (key : Text) (tag : LocaleTag) (found before rest : List ArgType)
    (h : found.length = rest.length) :
    compareTypes key tag before.length found ⟨before ++ rest⟩ =
      (⟨before ++ List.zipWith settledType rest found⟩,
        ((rest.zip found).zipIdx before.length).filterMap fun ((expected, type), index) =>
          if expected.isConcrete ∧ type.isConcrete ∧ expected ≠ type then
            some (typeMismatch key tag index expected type)
          else none) := by
  -- the types before the index are the ones already compared
  induction found generalizing before rest with
  | nil =>
    obtain rfl : rest = [] := List.length_eq_zero_iff.mp h.symm
    rfl
  | cons type found ih =>
    obtain ⟨expected, rest, rfl⟩ : ∃ expected rest', rest = expected :: rest' :=
      List.exists_cons_of_length_eq_add_one h.symm
    have hlen : found.length = rest.length := by simpa using h
    have hget : Signature.get? ⟨before ++ expected :: rest⟩ before.length = some expected := by
      simp [Signature.get?]
    -- the next index sees one more type before it
    have step : ∀ t, compareTypes key tag (before.length + 1) found ⟨before ++ t :: rest⟩ =
        (⟨before ++ t :: List.zipWith settledType rest found⟩,
          ((rest.zip found).zipIdx (before.length + 1)).filterMap fun ((expected, type), index) =>
            if expected.isConcrete ∧ type.isConcrete ∧ expected ≠ type then
              some (typeMismatch key tag index expected type)
            else none) := fun t => by
      simpa using ih (before ++ [t]) rest hlen
    simp only [compareTypes, hget, List.zipWith_cons_cons, List.zip_cons_cons, List.zipIdx_cons]
    by_cases hsame : (!type.isConcrete || expected = type) = true
    · have hnone : ¬(expected.isConcrete = true ∧ type.isConcrete = true ∧ expected ≠ type) := by
        rintro ⟨_, htype, hne⟩
        simp [htype, hne] at hsame
      rw [if_pos hsame, step, List.filterMap_cons_none (by simp [hnone]),
        settledType_of_agree hsame]
    · rw [if_neg hsame]
      have htype : type.isConcrete = true := by
        by_contra hc
        simp [hc] at hsame
      have hne : expected ≠ type := by
        rintro rfl
        simp at hsame
      cases hexp : expected.isConcrete with
      | false =>
        -- an open type is settled, which is no problem
        obtain rfl : expected = .untyped := eq_untyped_of_isConcrete hexp
        simp only [refine_append htype, step]
        rw [List.filterMap_cons_none (by simp [hexp])]
        simp [settledType, hexp]
      | true =>
        -- two concrete types that differ are a problem, and the one in force stays
        simp only [refine_append_of_concrete hexp, step]
        rw [List.filterMap_cons_some (b := typeMismatch key tag before.length expected type)
          (by simp [hexp, htype, hne])]
        simp [settledType, hexp]

/-- **One comparison against the types in force**: a signature with another number of arguments is
one problem and changes nothing; otherwise every index with another concrete type is a problem, and
the signature has its say at all indices that were open. -/
theorem compareSignatures_inForce (key : Text) (tag : LocaleTag) (main found : Signature)
    (earlier : List Signature) :
    compareSignatures key tag (inForce main earlier) found =
      (inForce main (earlier ++ [found]),
        if found.size = main.size then typeMismatches key tag (inForce main earlier) found
        else [⟨key, some tag, .argCountMismatch,
          s!"expected {main.size} args, found {found.size}"⟩]) := by
  rw [inForce_append_singleton, compareSignatures, size_inForce]
  by_cases h : found.size = main.size
  · have hlen : found.types.length = (inForce main earlier).types.length := by
      simpa [Signature.size, inForce] using h
    have := compareTypes_append key tag found.types [] (inForce main earlier).types hlen
    simpa [h, settledBy, typeMismatches] using this
  · simp [h, Ne.symm h]

/-! ## Section 4: Without a mismatch -/

variable {key : Text} {tag : LocaleTag} {main found : Signature} {earlier : List Signature}
  {index : Nat} {type : ArgType}

/-- A type in force stays in force, whatever signatures follow. -/
theorem typeInForce?_append (h : typeInForce? main earlier index = some type)
    (later : List Signature) : typeInForce? main (earlier ++ later) index = some type := by
  unfold typeInForce? at h ⊢
  rw [List.filter_append, ← List.cons_append, List.filterMap_append, List.find?_append, h,
    Option.some_or]

theorem get?_inForce (h : typeInForce? main earlier index = some type)
    (hindex : index < main.size) : (inForce main earlier).get? index = some type := by
  simp [inForce, Signature.get?, hindex, h]

/-- Where no mismatch is found, two concrete types at one index are the same. -/
theorem eq_of_typeMismatches_eq_nil {inForce : Signature} {expected : ArgType}
    (h : typeMismatches key tag inForce found = []) (hexpected : inForce.get? index = some expected)
    (hfound : found.get? index = some type) (hconcrete : expected.isConcrete = true)
    (hconcrete' : type.isConcrete = true) : expected = type := by
  by_contra hne
  have hzip : ((expected, type), index) ∈ (inForce.types.zip found.types).zipIdx :=
    List.mem_zipIdx_iff_getElem?.mpr (List.getElem?_zip_eq_some.mpr ⟨hexpected, hfound⟩)
  have hnone := List.filterMap_eq_nil_iff.mp h _ hzip
  simp [hconcrete, hconcrete', hne] at hnone

/-- **Without a mismatch, a locale's concrete types are in force** after it. -/
theorem typeInForce?_of_agrees (hsize : found.size = main.size)
    (h : typeMismatches key tag (inForce main earlier) found = [])
    (hfound : found.get? index = some type) (hconcrete : type.isConcrete = true) :
    typeInForce? main (earlier ++ [found]) index = some type := by
  rw [typeInForce?_append_of_size hsize, hfound]
  cases hearlier : typeInForce? main earlier index with
  | none => simp [Option.filter, hconcrete]
  | some expected =>
    -- a type that is in force already is the one that the locale gives
    have hindex : index < main.size := by
      rw [← hsize]
      exact (List.getElem?_eq_some_iff.mp hfound).1
    obtain rfl := eq_of_typeMismatches_eq_nil h (get?_inForce hearlier hindex) hfound
      (isConcrete_of_typeInForce? hearlier) hconcrete
    rfl

end Validation

end MessageCatalog
