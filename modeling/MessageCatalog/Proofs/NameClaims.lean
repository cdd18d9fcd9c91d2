import MessageCatalog.Accessor.Source
import Mathlib.Data.List.Perm.Basic
import Mathlib.Tactic.SplitIfs

/-!
# Claiming names in turn

Constants and types are given to messages by two runs of one kind: the elements of a list claim
names in turn, each is granted its names or refused with a reason, and the names granted are taken
for all that come later. This module says once what such a run does, whatever the names are, and
shows that the two passes of the planning are such runs.

## Main statements

* `nodup_taken` : names that are granted are distinct, among themselves and from those taken before
* `sublist_granted`, `perm_granted_refused` : the run keeps the order of the elements, and each one
  is either granted or refused
* `mem_refused_iff`, `mem_taken_iff_of_ascending` : why an element is refused, given the names that
  the elements with smaller keys have taken
* `planAll_eq` : planning is a run over the messages, then a run over their constants
-/

namespace MessageCatalog.Accessor

open Text Ordered

/-! ## Section 1: Runs -/

/-- The outcome of a run: what was granted, what was refused and why, and the names taken. -/
structure Claims (α β ε : Type) where
  granted : List β
  refused : List (α × ε)
  taken : List Text

section Run

variable {α β ε : Type} {claim : List Text → α → Except ε β} {names : β → List Text}

/-- Let the elements of a list claim names in turn: `claim` is what an element gets when some names
are taken, and `names` are the names that it then takes. -/
def claimAll (claim : List Text → α → Except ε β) (names : β → List Text) :
    (taken : List Text) → List α → Claims α β ε
  | taken, [] => ⟨[], [], taken⟩
  | taken, a :: rest =>
    match claim taken a with
    | .ok b =>
      let later := claimAll claim names (names b ++ taken) rest
      ⟨b :: later.granted, later.refused, later.taken⟩
    | .error e =>
      let later := claimAll claim names taken rest
      ⟨later.granted, (a, e) :: later.refused, later.taken⟩

theorem claimAll_cons_of_ok {taken : List Text} {a : α} {b : β} (h : claim taken a = .ok b)
    (rest : List α) :
    claimAll claim names taken (a :: rest) =
      ⟨b :: (claimAll claim names (names b ++ taken) rest).granted,
        (claimAll claim names (names b ++ taken) rest).refused,
        (claimAll claim names (names b ++ taken) rest).taken⟩ := by
  simp only [claimAll, h]

theorem claimAll_cons_of_error {taken : List Text} {a : α} {e : ε} (h : claim taken a = .error e)
    (rest : List α) :
    claimAll claim names taken (a :: rest) =
      ⟨(claimAll claim names taken rest).granted,
        (a, e) :: (claimAll claim names taken rest).refused,
        (claimAll claim names taken rest).taken⟩ := by
  simp only [claimAll, h]

/-- A run over two lists in turn goes on with the names that the first one has left. -/
theorem claimAll_append (taken : List Text) (l l' : List α) :
    claimAll claim names taken (l ++ l') =
      ⟨(claimAll claim names taken l).granted ++
          (claimAll claim names (claimAll claim names taken l).taken l').granted,
        (claimAll claim names taken l).refused ++
          (claimAll claim names (claimAll claim names taken l).taken l').refused,
        (claimAll claim names (claimAll claim names taken l).taken l').taken⟩ := by
  induction l generalizing taken with
  | nil => rfl
  | cons a l ih =>
    rw [List.cons_append]
    cases h : claim taken a with
    | ok b => simp only [claimAll_cons_of_ok h, ih, List.cons_append]
    | error e => simp only [claimAll_cons_of_error h, ih, List.cons_append]

/-- The names taken in the end are those granted and those taken before. -/
theorem perm_taken (taken : List Text) (l : List α) :
    (claimAll claim names taken l).taken.Perm
      ((claimAll claim names taken l).granted.flatMap names ++ taken) := by
  induction l generalizing taken with
  | nil => exact .refl _
  | cons a l ih =>
    cases h : claim taken a with
    | ok b =>
      rw [claimAll_cons_of_ok h]
      refine (ih (names b ++ taken)).trans ?_
      rw [List.flatMap_cons, ← List.append_assoc]
      exact List.perm_append_comm.append_right taken
    | error e =>
      rw [claimAll_cons_of_error h]
      exact ih taken

/-- **The names of a run are distinct** when every element is granted names that are. -/
theorem nodup_taken
    (hfresh : ∀ taken a b, claim taken a = .ok b → taken.Nodup → (names b ++ taken).Nodup)
    {taken : List Text} (h : taken.Nodup) (l : List α) :
    (claimAll claim names taken l).taken.Nodup := by
  induction l generalizing taken with
  | nil => exact h
  | cons a l ih =>
    cases hclaim : claim taken a with
    | ok b =>
      rw [claimAll_cons_of_ok hclaim]
      exact ih (hfresh taken a b hclaim h)
    | error e =>
      rw [claimAll_cons_of_error hclaim]
      exact ih h

/-! ## Section 2: Elements of a run -/

/-- What an element is granted it gets in the state that the elements before it have left. -/
theorem mem_granted_iff {taken : List Text} {l : List α} {b : β} :
    b ∈ (claimAll claim names taken l).granted ↔
      ∃ before a after, l = before ++ a :: after ∧
        claim (claimAll claim names taken before).taken a = .ok b := by
  constructor
  · induction l generalizing taken with
    | nil => simp [claimAll]
    | cons a l ih =>
      intro hb
      cases h : claim taken a with
      | ok b' =>
        rw [claimAll_cons_of_ok h] at hb
        rcases List.mem_cons.mp hb with rfl | hb
        · exact ⟨[], a, l, rfl, h⟩
        · obtain ⟨before, a', after, rfl, hclaim⟩ := ih hb
          exact ⟨a :: before, a', after, rfl, by rwa [claimAll_cons_of_ok h]⟩
      | error e =>
        rw [claimAll_cons_of_error h] at hb
        obtain ⟨before, a', after, rfl, hclaim⟩ := ih hb
        exact ⟨a :: before, a', after, rfl, by rwa [claimAll_cons_of_error h]⟩
  · rintro ⟨before, a, after, rfl, h⟩
    rw [claimAll_append, claimAll_cons_of_ok h]
    exact List.mem_append_right _ List.mem_cons_self

/-- **An element is refused** in the state that the elements before it have left. -/
theorem mem_refused_iff {taken : List Text} {l : List α} {a : α} {e : ε} :
    (a, e) ∈ (claimAll claim names taken l).refused ↔
      ∃ before after, l = before ++ a :: after ∧
        claim (claimAll claim names taken before).taken a = .error e := by
  constructor
  · induction l generalizing taken with
    | nil => simp [claimAll]
    | cons a' l ih =>
      intro ha
      cases h : claim taken a' with
      | ok b =>
        rw [claimAll_cons_of_ok h] at ha
        obtain ⟨before, after, rfl, hclaim⟩ := ih ha
        exact ⟨a' :: before, after, rfl, by rwa [claimAll_cons_of_ok h]⟩
      | error e' =>
        rw [claimAll_cons_of_error h] at ha
        rcases List.mem_cons.mp ha with heq | ha
        · obtain ⟨rfl, rfl⟩ := Prod.mk.inj heq
          exact ⟨[], l, rfl, h⟩
        · obtain ⟨before, after, rfl, hclaim⟩ := ih ha
          exact ⟨a' :: before, after, rfl, by rwa [claimAll_cons_of_error h]⟩
  · rintro ⟨before, after, rfl, h⟩
    rw [claimAll_append, claimAll_cons_of_error h]
    exact List.mem_append_right _ List.mem_cons_self

section Keyed

variable {κ : Type} {key : α → κ} {keyOf : β → κ}

/-- What is granted stands in the order of the elements. -/
theorem sublist_granted (hkey : ∀ taken a b, claim taken a = .ok b → keyOf b = key a)
    (taken : List Text) (l : List α) :
    ((claimAll claim names taken l).granted.map keyOf).Sublist (l.map key) := by
  induction l generalizing taken with
  | nil => exact .slnil
  | cons a l ih =>
    cases h : claim taken a with
    | ok b =>
      rw [claimAll_cons_of_ok h, List.map_cons, List.map_cons, hkey taken a b h]
      exact (ih _).cons_cons _
    | error e =>
      rw [claimAll_cons_of_error h, List.map_cons]
      exact (ih _).cons _

/-- **Each element is either granted or refused**, and only once. -/
theorem perm_granted_refused (hkey : ∀ taken a b, claim taken a = .ok b → keyOf b = key a)
    (taken : List Text) (l : List α) :
    ((claimAll claim names taken l).granted.map keyOf ++
      (claimAll claim names taken l).refused.map (key ·.1)).Perm (l.map key) := by
  induction l generalizing taken with
  | nil => exact .refl _
  | cons a l ih =>
    cases h : claim taken a with
    | ok b =>
      rw [claimAll_cons_of_ok h, List.map_cons, List.map_cons, hkey taken a b h]
      exact (ih _).cons _
    | error e =>
      rw [claimAll_cons_of_error h, List.map_cons, List.map_cons]
      exact List.perm_middle.trans ((ih _).cons _)

/-- **The names that an element finds taken**, when the elements stand in the order of their keys:
those taken at the start, and those of the elements with smaller keys. -/
theorem mem_taken_iff_of_ascending [Ord κ] [Std.TransOrd κ]
    (hkey : ∀ taken a b, claim taken a = .ok b → keyOf b = key a) {taken : List Text}
    {before after : List α} {a : α} (h : Ascending ((before ++ a :: after).map key))
    {name : Text} :
    name ∈ (claimAll claim names taken before).taken ↔
      name ∈ taken ∨ ∃ b ∈ (claimAll claim names taken (before ++ a :: after)).granted,
        compare (keyOf b) (key a) = .lt ∧ name ∈ names b := by
  rw [List.map_append, List.map_cons] at h
  obtain ⟨_, hafter, hbefore⟩ := List.pairwise_append.mp h
  -- the elements before this one are those whose keys are smaller
  have hsmaller : ∀ b, b ∈ (claimAll claim names taken before).granted ↔
      b ∈ (claimAll claim names taken (before ++ a :: after)).granted ∧
        compare (keyOf b) (key a) = .lt := by
    intro b
    rw [claimAll_append, List.mem_append]
    constructor
    · intro hb
      have hmem := (sublist_granted hkey taken before).subset (List.mem_map_of_mem hb)
      exact ⟨.inl hb, hbefore _ hmem _ List.mem_cons_self⟩
    · rintro ⟨hb | hb, hlt⟩
      · exact hb
      have hmem := (sublist_granted hkey _ (a :: after)).subset (List.mem_map_of_mem hb)
      rcases List.mem_cons.mp hmem with heq | hmem
      · have hself : compare (key a) (key a) = .eq := Std.ReflCmp.compare_self
        rw [heq, hself] at hlt
        exact absurd hlt (by decide)
      · exact absurd hlt (Std.OrientedCmp.not_lt_of_lt ((List.pairwise_cons.mp hafter).1 _ hmem))
  rw [(perm_taken taken before).mem_iff, List.mem_append, List.mem_flatMap, or_comm]
  refine or_congr_right (exists_congr fun b => ?_)
  rw [hsmaller, and_assoc]

end Keyed

end Run

/-! ## Section 3: The two passes -/

/-- A message that can have an accessor gets the constant of its key, unless that is not usable or
taken. -/
theorem claimConstant_of_readable {specs : MessageSpecs} {spec : MessageSpec}
    {signature : Signature} {mainTemplate : Text} (hsignature : spec.signature = some signature)
    (hread : specs.hasParseError spec.key = false)
    (hmain : spec.templates.get? specs.mainLocale = some mainTemplate) (taken : List Text) :
    claimConstant specs taken spec =
      if isUsableConstant (constantName spec.key) = false then
        .error (.unusableConstant (constantName spec.key))
      else if constantName spec.key ∈ taken then .error (.constantTaken (constantName spec.key))
      else .ok ⟨spec, signature, mainTemplate, constantName spec.key⟩ := by
  simp only [claimConstant, hsignature, hread, hmain, Bool.not_eq_true', Bool.false_eq_true,
    if_false]

/-- **What is granted in the first pass**: the constant of the key, which is usable and was free. -/
theorem candidate_of_claimConstant {specs : MessageSpecs} {taken : List Text} {spec : MessageSpec}
    {candidate : Candidate} (h : claimConstant specs taken spec = .ok candidate) :
    candidate.spec = spec ∧ spec.signature = some candidate.signature ∧
      specs.hasParseError spec.key = false ∧ candidate.constant = constantName spec.key ∧
      isUsableConstant candidate.constant = true ∧ candidate.constant ∉ taken := by
  cases hsignature : spec.signature with
  | none => simp [claimConstant, hsignature] at h
  | some signature =>
  cases hread : specs.hasParseError spec.key with
  | true => simp [claimConstant, hsignature, hread] at h
  | false =>
  cases hmain : spec.templates.get? specs.mainLocale with
  | none => simp [claimConstant, hsignature, hread, hmain] at h
  | some mainTemplate =>
    rw [claimConstant_of_readable hsignature hread hmain] at h
    split_ifs at h with husable hfree
    cases h
    exact ⟨rfl, rfl, rfl, rfl, by simpa using husable, hfree⟩

theorem key_of_claimConstant {specs : MessageSpecs} {taken : List Text} {spec : MessageSpec}
    {candidate : Candidate} (h : claimConstant specs taken spec = .ok candidate) :
    candidate.spec.key = spec.key := by
  rw [(candidate_of_claimConstant h).1]

/-- **What is granted in the second pass**: the type that the constant names, or else that one with
`Message` after it. Name and builder were free. -/
theorem typeName_of_claimType {taken : List Text} {constant typeName : Text}
    (h : claimType taken constant = .ok typeName) :
    ∃ base, typeName? constant = some base ∧
      (typeName = base ∨ typeName = base ++ "Message".toList) ∧
      typeName ∉ taken ∧ builderOf typeName ∉ taken := by
  cases hbase : typeName? constant with
  | none => simp [claimType, hbase] at h
  | some base =>
    simp only [claimType, hbase] at h
    split_ifs at h with hfree hfallback
    · cases h
      exact ⟨_, rfl, .inl rfl, not_mem_of_isFree hfree⟩
    · cases h
      exact ⟨base, rfl, .inr rfl, not_mem_of_isFree hfallback⟩

/-- The skipped message of a refused one. -/
def skippedSpec (refusal : MessageSpec × SkipReason) : Skipped := ⟨refusal.1.key, refusal.2⟩

theorem claimConstants_eq (specs : MessageSpecs) (taken : List Text) (l : List MessageSpec) :
    claimConstants specs taken l =
      ((claimAll (claimConstant specs) (fun c => [c.constant]) taken l).granted,
        (claimAll (claimConstant specs) (fun c => [c.constant]) taken l).refused.map skippedSpec,
        (claimAll (claimConstant specs) (fun c => [c.constant]) taken l).taken) := by
  induction l generalizing taken with
  | nil => rfl
  | cons spec l ih =>
    cases h : claimConstant specs taken spec with
    | ok candidate =>
      simp only [claimConstants, h, claimAll_cons_of_ok h, ih, List.singleton_append]
    | error reason =>
      simp only [claimConstants, h, claimAll_cons_of_error h, ih, List.map_cons, skippedSpec]

/-- The plan that a candidate gets when some names are taken. -/
def claimPlan (keyPrefix : Text) (taken : List Text) (candidate : Candidate) :
    Except SkipReason Plan :=
  (claimType taken candidate.constant).map (candidate.plan keyPrefix)

theorem claimPlan_eq_ok_iff {keyPrefix : Text} {taken : List Text} {candidate : Candidate}
    {plan : Plan} :
    claimPlan keyPrefix taken candidate = .ok plan ↔
      ∃ typeName, claimType taken candidate.constant = .ok typeName ∧
        plan = candidate.plan keyPrefix typeName := by
  unfold claimPlan
  cases claimType taken candidate.constant <;> simp [Except.map, eq_comm]

theorem claimPlan_eq_error_iff {keyPrefix : Text} {taken : List Text} {candidate : Candidate}
    {reason : SkipReason} :
    claimPlan keyPrefix taken candidate = .error reason ↔
      claimType taken candidate.constant = .error reason := by
  unfold claimPlan
  cases claimType taken candidate.constant <;> simp [Except.map]

theorem key_of_claimPlan {keyPrefix : Text} {taken : List Text} {candidate : Candidate}
    {plan : Plan} (h : claimPlan keyPrefix taken candidate = .ok plan) :
    plan.key = candidate.spec.key := by
  obtain ⟨_, _, rfl⟩ := claimPlan_eq_ok_iff.mp h
  rfl

/-- The names that a plan takes besides its constant. -/
def Plan.typeNames (plan : Plan) : List Text := [plan.builderName, plan.typeName]

/-- The skipped message of a refused candidate. -/
def skippedCandidate (refusal : Candidate × SkipReason) : Skipped :=
  ⟨refusal.1.spec.key, refusal.2⟩

theorem claimTypes_eq (keyPrefix : Text) (taken : List Text) (l : List Candidate) :
    claimTypes keyPrefix taken l =
      ((claimAll (claimPlan keyPrefix) Plan.typeNames taken l).granted,
        (claimAll (claimPlan keyPrefix) Plan.typeNames taken l).refused.map skippedCandidate) := by
  induction l generalizing taken with
  | nil => rfl
  | cons candidate l ih =>
    cases h : claimType taken candidate.constant with
    | ok typeName =>
      have hclaim : claimPlan keyPrefix taken candidate =
          .ok (candidate.plan keyPrefix typeName) := claimPlan_eq_ok_iff.mpr ⟨typeName, h, rfl⟩
      simp only [claimTypes, h, claimAll_cons_of_ok hclaim, ih]
      rfl
    | error reason =>
      have hclaim : claimPlan keyPrefix taken candidate = .error reason := by
        rw [claimPlan, h, Except.map]
      simp only [claimTypes, h, claimAll_cons_of_error hclaim, ih, List.map_cons, skippedCandidate]

/-- The first pass: the messages of a bundle claim their constants. -/
def constantClaims (specs : MessageSpecs) : Claims MessageSpec Candidate SkipReason :=
  claimAll (claimConstant specs) (fun c => [c.constant]) reservedConstants specs.specs.values

/-- The second pass: those that have got a constant claim their types. -/
def typeClaims (specs : MessageSpecs) : Claims Candidate Plan SkipReason :=
  claimAll (claimPlan specs.keyPrefix) Plan.typeNames (constantClaims specs).taken
    (constantClaims specs).granted

/-- The names taken when the first type is claimed. -/
theorem perm_taken_constantClaims (specs : MessageSpecs) :
    (constantClaims specs).taken.Perm
      ((constantClaims specs).granted.map Candidate.constant ++ reservedConstants) := by
  rw [List.map_eq_flatMap]
  exact perm_taken _ _

/-- The names taken in the end. -/
theorem perm_taken_typeClaims (specs : MessageSpecs) :
    (typeClaims specs).taken.Perm
      ((typeClaims specs).granted.flatMap Plan.typeNames ++ (constantClaims specs).taken) :=
  perm_taken _ _

/-- **Planning is two runs in turn.** -/
theorem planAll_eq (specs : MessageSpecs) :
    planAll specs =
      ((typeClaims specs).granted,
        (constantClaims specs).refused.map skippedSpec ++
          (typeClaims specs).refused.map skippedCandidate) := by
  simp only [planAll, claimConstants_eq, claimTypes_eq]
  rfl

/-- The result of a generation follows from the plans. -/
theorem result_generate (options : Options) (specs : MessageSpecs) :
    (generate options specs).result =
      if (planAll specs).1 = [] then .error (.emptyBundle specs.bundleName)
      else .ok
        { source := renderSource specs (planAll specs).1 options
          accessors := (planAll specs).1.map Plan.key
          skipped := (planAll specs).2.mergeSort fun a b => (compare a.key b.key).isLE } := by
  simp only [generate, Logged.result_bind]
  show Except.bind (.ok ()) _ = _
  by_cases h : (planAll specs).1 = []
  · simp only [h, List.isEmpty_nil, if_true]
    rfl
  · simp only [h, List.isEmpty_iff, if_false]
    rfl

end MessageCatalog.Accessor
