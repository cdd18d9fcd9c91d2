import MessageCatalog.Proofs.DeclaredTypes
import MessageCatalog.Proofs.StoredArguments
import MessageCatalog.Proofs.TemplateRoundTrip

/-!
# What a signature says

A signature is gathered placeholder by placeholder, in slots that are made as the indices come. What
it says does not depend on that order: an index has the concrete type that is declared for it, is
untyped where it is only mentioned, and is a string where it is not. There is no signature exactly
when an index is declared with two concrete types; then the first placeholder that differs from the
first type of its index is reported.

## Main statements

* `place_settled`, `place_conflict` : one placeholder, with or without a conflict
* `outcome_foldlM_place` : what this comes to over all placeholders
* `ambiguous_iff_conflicts` : types conflict exactly when an index is declared with two of them
* `SignatureOf.unique_of_perm` : what a signature says settles it, in whatever order
* `signature_of_parse` : the signature of every template, or its failure
-/

namespace MessageCatalog

open Message (arity)
open Segment (printAll)

namespace Template

/-! ## Section 1: Declarations -/

/-- Some placeholders give a type to an index. -/
def Declares (ps : List Placeholder) (index : Nat) (type : ArgType) : Prop :=
  ∃ p ∈ ps, p.index = index ∧ p.argType = type

/-- Two placeholders give one index different concrete types. -/
def Ambiguous (ps : List Placeholder) : Prop :=
  ∃ index first second, Declares ps index first ∧ Declares ps index second ∧
    first.isConcrete = true ∧ second.isConcrete = true ∧ first ≠ second

/-- The concrete type that a placeholder gives to an index. -/
def concreteAt? (index : Nat) (p : Placeholder) : Option ArgType :=
  if p.index = index ∧ p.argType.isConcrete = true then some p.argType else none

/-- The first concrete type that some placeholders give to an index. -/
def firstType? (ps : List Placeholder) (index : Nat) : Option ArgType :=
  ps.findSome? (concreteAt? index)

/-- Whether the type of a placeholder is concrete, but not the first one of its index. -/
def conflicts (ps : List Placeholder) (p : Placeholder) : Bool :=
  p.argType.isConcrete && firstType? ps p.index != some p.argType

section

variable {ps before rest : List Placeholder} {p : Placeholder} {index : Nat} {type : ArgType}

theorem concreteAt?_eq_some_iff :
    concreteAt? index p = some type ↔
      p.index = index ∧ p.argType = type ∧ type.isConcrete = true := by
  unfold concreteAt?
  split
  · rename_i h
    constructor
    · intro htype
      obtain rfl := Option.some.inj htype
      exact ⟨h.1, rfl, h.2⟩
    · rintro ⟨-, rfl, -⟩
      rfl
  · rename_i h
    refine iff_of_false (by simp) ?_
    rintro ⟨hindex, rfl, hconcrete⟩
    exact h ⟨hindex, hconcrete⟩

theorem declares_of_firstType? (h : firstType? ps index = some type) :
    Declares ps index type ∧ type.isConcrete = true := by
  obtain ⟨p, hp, htype⟩ := List.exists_of_findSome?_eq_some h
  obtain ⟨hindex, hdeclared, hconcrete⟩ := concreteAt?_eq_some_iff.mp htype
  exact ⟨⟨p, hp, hindex, hdeclared⟩, hconcrete⟩

/-- An index that is declared with a concrete type has a first one. -/
theorem exists_firstType? (h : Declares ps index type) (hconcrete : type.isConcrete = true) :
    ∃ first, firstType? ps index = some first := by
  obtain ⟨p, hp, hindex, htype⟩ := h
  rw [← Option.isSome_iff_exists, firstType?, List.findSome?_isSome_iff]
  exact ⟨p, hp, by rw [concreteAt?_eq_some_iff.mpr ⟨hindex, htype, hconcrete⟩]; rfl⟩

theorem firstType?_append (before rest : List Placeholder) (index : Nat) :
    firstType? (before ++ rest) index = (firstType? before index).or (firstType? rest index) :=
  List.findSome?_append

theorem firstType?_append_singleton (ps : List Placeholder) (p : Placeholder) (index : Nat) :
    firstType? (ps ++ [p]) index = (firstType? ps index).or (concreteAt? index p) := by
  rw [firstType?_append]
  congr 1
  simp [firstType?]

/-- What comes after a placeholder does not make it conflict. -/
theorem conflicts_append (before rest : List Placeholder) (p : Placeholder) :
    conflicts (before ++ p :: rest) p = conflicts (before ++ [p]) p := by
  unfold conflicts
  cases hconcrete : p.argType.isConcrete with
  | false => rfl
  | true =>
    -- the first type of the index is found at the placeholder or before it
    have hself : concreteAt? p.index p = some p.argType :=
      concreteAt?_eq_some_iff.mpr ⟨rfl, rfl, hconcrete⟩
    have hfirst : ∀ rest, firstType? (p :: rest) p.index = some p.argType := fun rest => by
      rw [firstType?, List.findSome?_cons, hself]
    rw [firstType?_append, firstType?_append, hfirst, hfirst]

/-- **Types conflict exactly when an index is declared with two of them.** -/
theorem ambiguous_iff_conflicts : Ambiguous ps ↔ ∃ p ∈ ps, conflicts ps p = true := by
  simp only [conflicts, Bool.and_eq_true, bne_iff_ne]
  constructor
  · rintro ⟨index, _, _, ⟨p, hp, rfl, rfl⟩, ⟨q, hq, hindex, rfl⟩, hfirst, hsecond, hne⟩
    -- only one of the two types can be the first one of the index
    by_cases hp' : firstType? ps p.index = some p.argType
    · refine ⟨q, hq, hsecond, fun hq' => hne ?_⟩
      rw [hindex, hp'] at hq'
      exact Option.some.inj hq'
    · exact ⟨p, hp, hfirst, hp'⟩
  · rintro ⟨p, hp, hconcrete, hne⟩
    have hdeclared : Declares ps p.index p.argType := ⟨p, hp, rfl, rfl⟩
    obtain ⟨first, hfirst⟩ := exists_firstType? hdeclared hconcrete
    obtain ⟨hdeclared', hconcrete'⟩ := declares_of_firstType? hfirst
    refine ⟨p.index, first, p.argType, hdeclared', hdeclared, hconcrete', hconcrete, ?_⟩
    rintro rfl
    exact hne hfirst

/-! ## Section 2: Slots -/

/-- What some placeholders leave in the slot of an index. -/
def slotOf (ps : List Placeholder) (index : Nat) : Option ArgType :=
  (firstType? ps index).or (if ∃ p ∈ ps, p.index = index then some .untyped else none)

/-- One more placeholder fills its own slot, unless there is a concrete type in it. -/
theorem slotOf_append_singleton (ps : List Placeholder) (p : Placeholder) (index : Nat) :
    slotOf (ps ++ [p]) index =
      if index = p.index then some ((firstType? ps index).getD p.argType) else slotOf ps index := by
  unfold slotOf
  rw [firstType?_append_singleton]
  by_cases hindex : index = p.index
  · subst hindex
    cases firstType? ps p.index with
    | some first => simp
    | none =>
      by_cases hconcrete : p.argType.isConcrete = true
      · simp [concreteAt?, hconcrete]
      · have huntyped : p.argType = .untyped := by simpa [ArgType.isConcrete] using hconcrete
        simp [concreteAt?, huntyped, ArgType.isConcrete]
  · have hother : concreteAt? index p = none := if_neg fun h => hindex h.1.symm
    have hne : p.index ≠ index := Ne.symm hindex
    simp [hother, hindex, hne]

/-- Slots that hold what some placeholders leave in them. -/
structure Settled (ps : List Placeholder) (slots : List (Option ArgType)) : Prop where
  length_eq : slots.length = arity ps
  placed : ∀ index, placed? slots index = slotOf ps index

theorem arity_append_singleton (ps : List Placeholder) (p : Placeholder) :
    arity (ps ++ [p]) = max (arity ps) (p.index + 1) := by
  induction ps with
  | nil => simp [arity]
  | cons q ps ih =>
    have hcons : ∀ ps, arity (q :: ps) = max (q.index + 1) (arity ps) := fun _ => rfl
    rw [List.cons_append, hcons, hcons, ih, Nat.max_assoc]

theorem settled_nil : Settled [] [] := ⟨rfl, fun _ => rfl⟩

/-- Slots with the new one in place are those of one more placeholder. -/
theorem Settled.append_singleton {slots slots' : List (Option ArgType)} (h : Settled ps slots)
    (hplace : place slots p = .ok slots')
    (hplaced : ∀ index, placed? slots' index =
      if index = p.index then some ((firstType? ps index).getD p.argType)
      else placed? slots index) : Settled (ps ++ [p]) slots' where
  length_eq := by rw [length_place hplace, h.length_eq, arity_append_singleton]
  placed := fun index => by rw [hplaced, slotOf_append_singleton, h.placed]

/-- What stands in the slot of its index decides what becomes of a placeholder. -/
theorem place_eq (slots : List (Option ArgType)) (p : Placeholder) :
    place slots p =
      match placed? slots p.index with
      | none => .ok ((slots.rightpad (p.index + 1) none).set p.index (some p.argType))
      | some existing =>
        if existing = .untyped then
          .ok ((slots.rightpad (p.index + 1) none).set p.index (some p.argType))
        else if p.argType = .untyped ∨ p.argType = existing then
          .ok (slots.rightpad (p.index + 1) none)
        else .error (.ambiguousType p.index existing p.argType) := by
  rw [← placed?_rightpad slots (p.index + 1)]
  rfl

theorem placed?_filled (slots : List (Option ArgType)) (p : Placeholder) (index : Nat) :
    placed? ((slots.rightpad (p.index + 1) none).set p.index (some p.argType)) index =
      if index = p.index then some p.argType else placed? slots index := by
  have hroom : p.index < (slots.rightpad (p.index + 1) none).length := by
    simp [List.rightpad]
    omega
  rw [placed?_set hroom, placed?_rightpad]

/-- **One placeholder without a conflict** is settled. -/
theorem place_settled {slots : List (Option ArgType)} (h : Settled ps slots)
    (hconflict : conflicts (ps ++ [p]) p = false) :
    ∃ slots', place slots p = .ok slots' ∧ Settled (ps ++ [p]) slots' := by
  have hplaced := h.placed p.index
  rw [slotOf] at hplaced
  have hplace := place_eq slots p
  cases hfirst : firstType? ps p.index with
  | some first =>
    -- the slot has a concrete type, and the placeholder gives it no other one
    obtain ⟨-, hconcrete⟩ := declares_of_firstType? hfirst
    have hagrees : p.argType = .untyped ∨ p.argType = first := by
      rw [conflicts, firstType?_append_singleton, hfirst] at hconflict
      by_cases huntyped : p.argType = .untyped
      · exact .inl huntyped
      · have hequal : first = p.argType := by
          simpa [ArgType.isConcrete_iff.mpr huntyped] using hconflict
        exact .inr hequal.symm
    rw [hfirst, Option.some_or] at hplaced
    rw [hplaced] at hplace
    simp only [if_neg (ArgType.isConcrete_iff.mp hconcrete), if_pos hagrees] at hplace
    refine ⟨_, hplace, h.append_singleton hplace fun index => ?_⟩
    rw [placed?_rightpad]
    split
    · rename_i hindex
      subst hindex
      rw [hfirst, hplaced, Option.getD_some]
    · rfl
  | none =>
    -- the slot is open
    have hopen : place slots p =
        .ok ((slots.rightpad (p.index + 1) none).set p.index (some p.argType)) := by
      rw [hfirst, Option.none_or] at hplaced
      rw [hplace, hplaced]
      split_ifs <;> rfl
    refine ⟨_, hopen, h.append_singleton hopen fun index => ?_⟩
    rw [placed?_filled]
    split
    · rename_i hindex
      subst hindex
      rw [hfirst, Option.getD_none]
    · rfl

/-- **One placeholder with a conflict** is reported, with the first type of its index. -/
theorem place_conflict {slots : List (Option ArgType)} (h : Settled ps slots)
    (hconflict : conflicts (ps ++ [p]) p = true) :
    ∃ first, firstType? (ps ++ [p]) p.index = some first ∧
      place slots p = .error (.ambiguousType p.index first p.argType) := by
  obtain ⟨hconcrete, hne⟩ : p.argType.isConcrete = true ∧
      firstType? (ps ++ [p]) p.index ≠ some p.argType := by
    simpa [conflicts] using hconflict
  have hself : concreteAt? p.index p = some p.argType :=
    concreteAt?_eq_some_iff.mpr ⟨rfl, rfl, hconcrete⟩
  rw [firstType?_append_singleton, hself] at hne ⊢
  cases hfirst : firstType? ps p.index with
  | none => exact absurd (by rw [hfirst, Option.none_or]) hne
  | some first =>
    have hplaced : placed? slots p.index = some first := by
      rw [h.placed, slotOf, hfirst, Option.some_or]
    obtain ⟨-, hconcrete'⟩ := declares_of_firstType? hfirst
    -- neither of the two ways to leave the slot as it is
    have hother : ¬(p.argType = .untyped ∨ p.argType = first) := by
      rintro (huntyped | heq)
      · exact ArgType.isConcrete_iff.mp hconcrete huntyped
      · exact hne (by rw [hfirst, Option.some_or, heq])
    refine ⟨first, Option.some_or, ?_⟩
    rw [place_eq, hplaced]
    simp only [if_neg (ArgType.isConcrete_iff.mp hconcrete'), if_neg hother]

/-- What becomes of placeholders that are placed after others, of which they are the last ones. -/
inductive PlacingOutcome (ps last : List Placeholder) :
    Except TemplateError (List (Option ArgType)) → Prop
  /-- None of them conflicts, and all are settled. -/
  | settled {slots : List (Option ArgType)} (hslots : Settled ps slots)
      (hnone : last.find? (conflicts ps) = none) : PlacingOutcome ps last (.ok slots)
  /-- The first one that conflicts is reported. -/
  | conflict {p : Placeholder} {first : ArgType} (hp : last.find? (conflicts ps) = some p)
      (hfirst : firstType? ps p.index = some first) :
      PlacingOutcome ps last (.error (.ambiguousType p.index first p.argType))

/-- **All placeholders**, one after the other. -/
theorem outcome_foldlM_place {slots : List (Option ArgType)} (h : Settled before slots)
    (rest : List Placeholder) : PlacingOutcome (before ++ rest) rest (rest.foldlM place slots) := by
  -- each step moves a placeholder from those that are left to those that are settled
  induction rest generalizing before slots with
  | nil => exact .settled (by rwa [List.append_nil]) rfl
  | cons p rest ih =>
    have hhere := conflicts_append before rest p
    rw [List.foldlM_cons]
    cases hconflict : conflicts (before ++ [p]) p with
    | true =>
      obtain ⟨first, hfirst, hplace⟩ := place_conflict h hconflict
      rw [hplace]
      refine .conflict (List.find?_cons_of_pos (hhere.trans hconflict)) ?_
      rw [List.append_cons, firstType?_append, hfirst, Option.some_or]
    | false =>
      obtain ⟨slots', hplace, hslots'⟩ := place_settled h hconflict
      have hskip : (p :: rest).find? (conflicts (before ++ p :: rest)) =
          rest.find? (conflicts (before ++ p :: rest)) :=
        List.find?_cons_of_neg (by rw [hhere, hconflict]; simp)
      have houtcome := ih hslots'
      rw [← List.append_cons] at houtcome
      rw [hplace]
      show PlacingOutcome _ _ (rest.foldlM place slots')
      generalize rest.foldlM place slots' = outcome at houtcome ⊢
      cases houtcome with
      | settled hslots hnone => exact .settled hslots (hskip.trans hnone)
      | conflict hp hfirst => exact .conflict (hskip.trans hp) hfirst

/-! ## Section 3: Signatures -/

/-- What a signature says of some placeholders, in whatever order they stand. -/
structure SignatureOf (ps : List Placeholder) (s : Signature) : Prop where
  /-- The highest index and one more; nothing without placeholders. -/
  size_eq : s.size = arity ps
  concrete : ∀ index type, Declares ps index type → type.isConcrete = true →
    s.get? index = some type
  untyped : ∀ index, Declares ps index .untyped →
    (∀ type, Declares ps index type → type = .untyped) → s.get? index = some .untyped
  undeclared : ∀ index < s.size, (∀ type, ¬Declares ps index type) → s.get? index = some .string

theorem get?_of_slots (slots : List (Option ArgType)) (index : Nat) :
    (⟨slots.map (·.getD .string)⟩ : Signature).get? index =
      slots[index]?.map (·.getD .string) := by
  simp [Signature.get?]

theorem declares_iff_exists_index (ps : List Placeholder) (index : Nat) :
    (∃ type, Declares ps index type) ↔ ∃ p ∈ ps, p.index = index := by
  constructor
  · rintro ⟨_, p, hp, hindex, -⟩
    exact ⟨p, hp, hindex⟩
  · rintro ⟨p, hp, hindex⟩
    exact ⟨p.argType, p, hp, hindex, rfl⟩

/-- Without a conflict the slots are read as what the signature says. -/
theorem signatureOf_of_settled {slots : List (Option ArgType)} (h : Settled ps slots)
    (hclear : ¬Ambiguous ps) : SignatureOf ps ⟨slots.map (·.getD .string)⟩ := by
  have hget : ∀ index type, slotOf ps index = some type →
      (⟨slots.map (·.getD .string)⟩ : Signature).get? index = some type := by
    intro index type hslot
    have hentry : slots[index]? = some (some type) :=
      Option.join_eq_some_iff.mp ((h.placed index).trans hslot)
    rw [get?_of_slots, hentry]
    rfl
  refine ⟨?_, ?_, ?_, ?_⟩
  · show (slots.map _).length = _
    rw [List.length_map, h.length_eq]
  · intro index type hdeclared hconcrete
    obtain ⟨first, hfirst⟩ := exists_firstType? hdeclared hconcrete
    obtain ⟨hdeclared', hconcrete'⟩ := declares_of_firstType? hfirst
    have heq : first = type := by
      by_contra hne
      exact hclear ⟨index, first, type, hdeclared', hdeclared, hconcrete', hconcrete, hne⟩
    refine hget index type ?_
    rw [slotOf, hfirst, Option.some_or, heq]
  · intro index hdeclared hall
    have hnone : firstType? ps index = none := by
      by_contra hsome
      obtain ⟨first, hfirst⟩ := Option.ne_none_iff_exists'.mp hsome
      obtain ⟨hdeclared', hconcrete⟩ := declares_of_firstType? hfirst
      exact ArgType.isConcrete_iff.mp hconcrete (hall first hdeclared')
    refine hget index .untyped ?_
    rw [slotOf, hnone, Option.none_or,
      if_pos ((declares_iff_exists_index ps index).mp ⟨_, hdeclared⟩)]
  · intro index hlt hnone
    have hempty : slotOf ps index = none := by
      have hfirst : firstType? ps index = none := by
        by_contra hsome
        obtain ⟨first, hfirst⟩ := Option.ne_none_iff_exists'.mp hsome
        exact hnone first (declares_of_firstType? hfirst).1
      have hindex : ¬∃ p ∈ ps, p.index = index := fun hp =>
        not_exists.mpr hnone ((declares_iff_exists_index ps index).mpr hp)
      rw [slotOf, hfirst, if_neg hindex]
      rfl
    have hlength : index < slots.length := by simpa [Signature.size] using hlt
    have hslot : slots[index] = none := by
      have hjoin := (h.placed index).trans hempty
      rwa [placed?, List.getElem?_eq_getElem hlength] at hjoin
    rw [get?_of_slots, List.getElem?_eq_getElem hlength, hslot]
    rfl

/-! ## Section 4: The order of placeholders -/

theorem declares_perm {qs : List Placeholder} (h : ps.Perm qs) :
    Declares ps index type ↔ Declares qs index type := by
  simp only [Declares, h.mem_iff]

theorem ambiguous_perm {qs : List Placeholder} (h : ps.Perm qs) : Ambiguous ps ↔ Ambiguous qs := by
  simp only [Ambiguous, declares_perm h]

theorem arity_perm {qs : List Placeholder} (h : ps.Perm qs) : arity ps = arity qs := by
  induction h with
  | nil => rfl
  | cons p _ ih =>
    show max (p.index + 1) (arity _) = max (p.index + 1) (arity _)
    rw [ih]
  | swap p q ps => exact Nat.max_left_comm ..
  | trans _ _ ih ih' => exact ih.trans ih'

/-- **What a signature says settles it**, in whatever order the placeholders stand. -/
theorem SignatureOf.unique_of_perm {qs : List Placeholder} {s s' : Signature}
    (h : SignatureOf ps s) (h' : SignatureOf qs s') (hperm : ps.Perm qs) : s = s' := by
  have hsize : s.size = s'.size := by rw [h.size_eq, h'.size_eq, arity_perm hperm]
  have hget : ∀ index < s.size, s.get? index = s'.get? index := by
    intro index hlt
    -- an index is declared with a concrete type, only untyped, or not at all
    by_cases hconcrete : ∃ type, Declares ps index type ∧ type.isConcrete = true
    · obtain ⟨type, hdeclared, hconcrete⟩ := hconcrete
      rw [h.concrete index type hdeclared hconcrete,
        h'.concrete index type ((declares_perm hperm).mp hdeclared) hconcrete]
    · have hall : ∀ type, Declares ps index type → type = .untyped := by
        intro type hdeclared
        by_contra hne
        exact hconcrete ⟨type, hdeclared, ArgType.isConcrete_iff.mpr hne⟩
      by_cases hdeclared : ∃ type, Declares ps index type
      · obtain ⟨type, hdeclared⟩ := hdeclared
        obtain rfl := hall type hdeclared
        rw [h.untyped index hdeclared hall, h'.untyped index ((declares_perm hperm).mp hdeclared)
          fun type hd => hall type ((declares_perm hperm).mpr hd)]
      · have hnone := not_exists.mp hdeclared
        rw [h.undeclared index hlt hnone, h'.undeclared index (hsize ▸ hlt)
          fun type hd => hnone type ((declares_perm hperm).mpr hd)]
  obtain ⟨types⟩ := s
  obtain ⟨types'⟩ := s'
  congr 1
  apply List.ext_getElem? fun index => ?_
  by_cases hlt : index < types.length
  · exact hget index hlt
  · have hle : types.length ≤ index := Nat.le_of_not_lt hlt
    have hlength : types.length = types'.length := hsize
    have hle' : types'.length ≤ index := hlength ▸ hle
    rw [List.getElem?_eq_none hle, List.getElem?_eq_none hle']

/-! ## Section 5: Templates -/

/-- What becomes of all the placeholders of a template. -/
theorem outcome_placeholders (ps : List Placeholder) : PlacingOutcome ps ps (ps.foldlM place []) :=
  outcome_foldlM_place settled_nil ps

/-- **A signature fails with the first placeholder that conflicts.** -/
theorem signatureOf_eq_error_iff {e : TemplateError} :
    signatureOf ps = .error e ↔ ∃ p first, ps.find? (conflicts ps) = some p ∧
      firstType? ps p.index = some first ∧ e = .ambiguousType p.index first p.argType := by
  unfold signatureOf
  have houtcome := outcome_placeholders ps
  generalize ps.foldlM place [] = outcome at houtcome ⊢
  cases houtcome with
  | settled hslots hnone =>
    refine iff_of_false (by simp [Except.map]) ?_
    rintro ⟨p, first, hp, -⟩
    cases hnone.symm.trans hp
  | @conflict p first hp hfirst =>
    simp only [Except.map, Except.error.injEq]
    constructor
    · rintro rfl
      exact ⟨p, first, hp, hfirst, rfl⟩
    · rintro ⟨p', first', hp', hfirst', rfl⟩
      obtain rfl := Option.some.inj (hp.symm.trans hp')
      obtain rfl := Option.some.inj (hfirst.symm.trans hfirst')
      rfl

/-- **Without a conflict there is a signature**, and it says what is declared. -/
theorem exists_signatureOf (h : ¬Ambiguous ps) :
    ∃ s, signatureOf ps = .ok s ∧ SignatureOf ps s := by
  unfold signatureOf
  have houtcome := outcome_placeholders ps
  generalize ps.foldlM place [] = outcome at houtcome ⊢
  cases houtcome with
  | settled hslots _ => exact ⟨_, rfl, signatureOf_of_settled hslots h⟩
  | @conflict p _ hp _ =>
    exact absurd (ambiguous_iff_conflicts.mpr
      ⟨p, List.mem_of_find?_eq_some hp, List.find?_some hp⟩) h

theorem exists_error_iff_ambiguous : (∃ e, signatureOf ps = .error e) ↔ Ambiguous ps := by
  constructor
  · rintro ⟨e, he⟩
    obtain ⟨p, _, hp, -⟩ := signatureOf_eq_error_iff.mp he
    exact ambiguous_iff_conflicts.mpr ⟨p, List.mem_of_find?_eq_some hp, List.find?_some hp⟩
  · intro h
    cases hs : signatureOf ps with
    | error e => exact ⟨e, rfl⟩
    | ok s =>
      unfold signatureOf at hs
      have houtcome := outcome_placeholders ps
      generalize ps.foldlM place [] = outcome at houtcome hs
      cases houtcome with
      | settled _ hnone =>
        obtain ⟨p, hp, hconflict⟩ := ambiguous_iff_conflicts.mp h
        exact absurd hconflict (List.find?_eq_none.mp hnone p hp)
      | conflict _ _ => cases hs

/-- **The order of the placeholders does not matter.** -/
theorem signatureOf_perm {qs : List Placeholder} (h : ps.Perm qs) {s : Signature}
    (hs : signatureOf ps = .ok s) : signatureOf qs = .ok s := by
  have hclear : ¬Ambiguous ps := by
    rw [← exists_error_iff_ambiguous, hs]
    simp
  obtain ⟨s', hs', hmeaning⟩ := exists_signatureOf hclear
  obtain rfl := Except.ok.inj (hs.symm.trans hs')
  obtain ⟨s', hs', hmeaning'⟩ := exists_signatureOf ((ambiguous_perm h).not.mp hclear)
  rw [hs', hmeaning.unique_of_perm hmeaning' h]

/-- No index of a template is above the highest one. -/
theorem index_le_of_parse {source : Text} {t : Template} (h : parse source = .ok t) :
    ∀ p ∈ t.placeholders, p.index ≤ Placeholder.maxIndex := by
  have hnormal := normal_of_parse h
  unfold Template.placeholders
  generalize t.segments = segments at hnormal
  induction segments with
  | nil => simp
  | cons segment segments ih =>
    cases segment with
    | literal text =>
      rw [normal_literal_cons, Bool.and_eq_true] at hnormal
      exact ih hnormal.2
    | placeholder p =>
      rw [normal_placeholder_cons, Bool.and_eq_true] at hnormal
      obtain ⟨hp, hsegments⟩ := hnormal
      rw [Segment.placeholders_placeholder, List.forall_mem_cons]
      rw [Segment.normalPlaceholder, Bool.and_eq_true, decide_eq_true_eq] at hp
      exact ⟨hp.1, ih hsegments⟩

theorem arity_le {n : Nat} (h : ∀ p ∈ ps, p.index ≤ n) : arity ps ≤ n + 1 := by
  induction ps with
  | nil => exact Nat.zero_le _
  | cons p ps ih =>
    rw [List.forall_mem_cons] at h
    exact Nat.max_le.mpr ⟨Nat.succ_le_succ h.1, ih h.2⟩

end

/-- **The signature of a template.** It fails exactly when an index is declared with two concrete
types, and then reports the first placeholder whose type differs from the first concrete one of its
index. Otherwise it has the declared types up to the highest index, at most 256 of them. The order
of the placeholders does not matter. -/
theorem signature_of_parse {source : Text} {t : Template} (h : parse source = .ok t) :
    ((∃ e, t.signature = .error e) ↔ Ambiguous t.placeholders) ∧
      (∀ e, t.signature = .error e ↔ ∃ p first,
        t.placeholders.find? (conflicts t.placeholders) = some p ∧
          firstType? t.placeholders p.index = some first ∧
          e = .ambiguousType p.index first p.argType) ∧
      (¬Ambiguous t.placeholders →
        ∃ s, t.signature = .ok s ∧ SignatureOf t.placeholders s ∧ s.size ≤ 256) ∧
      ∀ other : Template, other.placeholders.Perm t.placeholders →
        ∀ s, other.signature = .ok s ↔ t.signature = .ok s := by
  refine ⟨exists_error_iff_ambiguous, fun e => signatureOf_eq_error_iff, fun hclear => ?_, ?_⟩
  · obtain ⟨s, hs, hmeaning⟩ := exists_signatureOf hclear
    refine ⟨s, hs, hmeaning, ?_⟩
    rw [hmeaning.size_eq]
    exact arity_le (index_le_of_parse h)
  · exact fun other hperm s => ⟨signatureOf_perm hperm, signatureOf_perm hperm.symm⟩

/-- Two indices are declared with two types each, and the one whose second type comes first is
reported; placeholders that agree in another order, with a gap between their indices. -/
theorem signature_of_parse_conflict :
    let clashing : List Segment :=
      [.placeholder ⟨0, none⟩, .placeholder ⟨1, some ⟨.date, none⟩⟩,
        .placeholder ⟨0, some ⟨.date, none⟩⟩, .placeholder ⟨1, some ⟨.number, none⟩⟩,
        .placeholder ⟨0, some ⟨.choice, some "0#none".toList⟩⟩]
    let agreeing : List Segment :=
      [.placeholder ⟨3, none⟩, .placeholder ⟨1, some ⟨.time, none⟩⟩, .placeholder ⟨0, none⟩,
        .placeholder ⟨3, some ⟨.number, none⟩⟩, .placeholder ⟨1, some ⟨.date, none⟩⟩]
    parse (printAll clashing) = .ok ⟨printAll clashing, clashing⟩ ∧
      signature ⟨printAll clashing, clashing⟩ = .error (.ambiguousType 1 .date .number) ∧
      parse (printAll agreeing) = .ok ⟨printAll agreeing, agreeing⟩ ∧
      signature ⟨printAll agreeing.reverse, agreeing.reverse⟩ =
        .ok ⟨[.untyped, .date, .string, .number]⟩ := by
  intro clashing agreeing
  have hclashing : parse (printAll clashing) = .ok ⟨printAll clashing, clashing⟩ :=
    parse_printAll (by decide)
  have hagreeing : parse (printAll agreeing) = .ok ⟨printAll agreeing, agreeing⟩ :=
    parse_printAll (by decide)
  obtain ⟨-, herror, -⟩ := signature_of_parse hclashing
  obtain ⟨-, -, -, hperm⟩ := signature_of_parse hagreeing
  have hreverse : (Segment.placeholders agreeing.reverse).Perm
      (Segment.placeholders agreeing) := by
    unfold Segment.placeholders
    exact (List.reverse_perm agreeing).filterMap _
  exact ⟨hclashing, (herror _).mpr ⟨_, _, rfl, rfl, rfl⟩, hagreeing,
    (hperm ⟨printAll agreeing.reverse, agreeing.reverse⟩ hreverse _).mpr rfl⟩

end Template

end MessageCatalog
