import MessageCatalog.Proofs.AccessorNames
import MessageCatalog.Proofs.StableSort
import MessageCatalog.Proofs.ValidationOutcome
import Mathlib.Data.List.Nodup

/-!
# Which messages get an accessor

A message of a validated bundle either gets an accessor or is skipped for a reason. The rule that
decides this is stated here without reference to the two passes of the planning: it speaks of the
messages that can have an accessor, of the constants of their keys, and of the types of the
accessors with smaller keys. Planning follows the rule, so no message is lost and none is counted
twice.

## Main statements

* `mem_candidates_iff` : the first of the messages with one constant keeps it
* `mem_taken_iff` : the names that are taken when the type of a message is chosen
* `mem_skipped_iff` : planning skips a message exactly when the rule does, and for the same reason
* `generate_validated` : what a generation gives for a validated bundle
-/

namespace MessageCatalog.Accessor

open Text Ordered

/-! ## Section 1: The rule -/

/-- The keys of the messages that can have an accessor, in key order. -/
def generatableKeys (specs : MessageSpecs) : List Text := specs.generatable.map (·.1.key)

/-- A constant that no accessor can have: one of underscores alone, or one of the bundle. -/
def IsUnusable (constant : Text) : Prop :=
  (∀ c ∈ constant, c = '_') ∨ constant ∈ reservedConstants

/-- **The names taken before a key** when its type is chosen: the constants of the bundle and of all
messages that can have an accessor, and the types and builders of the accessors with smaller
keys. -/
inductive TakenBefore (specs : MessageSpecs) (key : Text) : Text → Prop
  | reserved {name : Text} (h : name ∈ reservedConstants) : TakenBefore specs key name
  | constant {other : Text} (h : other ∈ generatableKeys specs)
      (husable : ¬IsUnusable (constantName other)) : TakenBefore specs key (constantName other)
  | type {plan : Plan} (h : plan ∈ (planAll specs).1) (hlt : compare plan.key key = .lt) :
      TakenBefore specs key plan.typeName
  | builder {plan : Plan} (h : plan ∈ (planAll specs).1) (hlt : compare plan.key key = .lt) :
      TakenBefore specs key plan.builderName

/-- A type name cannot be chosen if it or its builder's name is taken. -/
def IsTypeTaken (specs : MessageSpecs) (key typeName : Text) : Prop :=
  TakenBefore specs key typeName ∨ TakenBefore specs key (builderOf typeName)

/-- The message is the first one with its constant. -/
def IsFirst (specs : MessageSpecs) (key : Text) : Prop :=
  ∀ earlier ∈ generatableKeys specs, compare earlier key = .lt →
    constantName earlier ≠ constantName key

/-- **The messages that are skipped, and why.** -/
inductive Skips (specs : MessageSpecs) : Text → SkipReason → Prop
  /-- The main template does not settle a signature. -/
  | noSignature {spec : MessageSpec} (hspec : spec ∈ specs.specs.values)
      (h : spec.signature = none) : Skips specs spec.key .noSignature
  /-- The template of some locale cannot be read. -/
  | localeUnreadable {spec : MessageSpec} (hspec : spec ∈ specs.specs.values)
      (hsignature : spec.signature ≠ none) (h : specs.hasParseError spec.key = true) :
      Skips specs spec.key .localeUnreadable
  /-- The constant cannot be used. -/
  | unusableConstant {key : Text} (hkey : key ∈ generatableKeys specs)
      (h : IsUnusable (constantName key)) :
      Skips specs key (.unusableConstant (constantName key))
  /-- An earlier message has the same constant. -/
  | constantTaken {key earlier : Text} (hkey : key ∈ generatableKeys specs)
      (husable : ¬IsUnusable (constantName key)) (hearlier : earlier ∈ generatableKeys specs)
      (hlt : compare earlier key = .lt) (h : constantName earlier = constantName key) :
      Skips specs key (.constantTaken (constantName key))
  /-- Both names that the type may have are taken. -/
  | typeTaken {key base : Text} (hkey : key ∈ generatableKeys specs)
      (husable : ¬IsUnusable (constantName key)) (hfirst : IsFirst specs key)
      (hbase : typeName? (constantName key) = some base) (h : IsTypeTaken specs key base)
      (hfallback : IsTypeTaken specs key (base ++ "Message".toList)) :
      Skips specs key (.typeTaken base)

theorem isUsableConstant_eq_false_iff {constant : Text} :
    isUsableConstant constant = false ↔ IsUnusable constant := by
  rw [← Bool.not_eq_true, isUsableConstant, IsUnusable, Bool.and_eq_true, not_and_or]
  simp

/-! ## Section 2: Validated specifications -/

/-- Specifications in which every entry stands under its own key and has a main template. -/
structure IsKeyed (specs : MessageSpecs) : Prop where
  keys : specs.specs.values.map MessageSpec.key = specs.specs.keys
  main : ∀ spec ∈ specs.specs.values, ∃ template,
    spec.templates.get? specs.mainLocale = some template

open Validation in
theorem isKeyed_validate (b : Bundle) (maps : Table LocaleTag LocaleMessages) :
    IsKeyed (b.validate maps) where
  keys := by
    simp only [Table.values, Table.keys, entries_specs, List.map_map]
    rfl
  main := by
    intro spec hspec
    simp only [Table.values, entries_specs, List.map_map, List.mem_map] at hspec
    obtain ⟨⟨key, template⟩, hentry, rfl⟩ := hspec
    have htemplate : templateIn maps key b.mainLocale = some template := by
      rw [← get?_mainMessages]
      exact Table.get?_of_mem hentry
    have htracked : b.locales.any (·.same b.mainLocale) = true :=
      List.any_eq_true.mpr ⟨_, b.main_mem, same_iff_compare.mpr Std.ReflCmp.compare_self⟩
    refine ⟨template, ?_⟩
    exact (get?_templates htemplate b.mainLocale).trans (by rw [if_pos htracked, htemplate])

section Keyed

variable {specs : MessageSpecs}

theorem IsKeyed.ascending (h : IsKeyed specs) :
    Ascending (specs.specs.values.map MessageSpec.key) := by
  rw [h.keys]
  exact Table.ascending_keys _

/-- A message is settled by its key. -/
theorem IsKeyed.eq_of_key (h : IsKeyed specs) {spec spec' : MessageSpec}
    (hspec : spec ∈ specs.specs.values) (hspec' : spec' ∈ specs.specs.values)
    (hkey : spec.key = spec'.key) : spec = spec' :=
  List.inj_on_of_nodup_map h.ascending.nodup hspec hspec' hkey

theorem mem_generatableKeys_iff {key : Text} :
    key ∈ generatableKeys specs ↔ ∃ spec ∈ specs.specs.values, ∃ signature,
      spec.key = key ∧ spec.signature = some signature ∧ specs.hasParseError key = false := by
  simp only [generatableKeys, List.mem_map, Prod.exists, MessageSpecs.mem_generatable_iff]
  constructor
  · rintro ⟨spec, signature, ⟨hspec, hsignature, hread⟩, rfl⟩
    exact ⟨spec, hspec, signature, rfl, hsignature, hread⟩
  · rintro ⟨spec, hspec, signature, rfl, hsignature, hread⟩
    exact ⟨spec, signature, ⟨hspec, hsignature, hread⟩, rfl⟩

/-! ## Section 3: Constants -/

/-- What a candidate is: a message that can have an accessor, with a usable constant. -/
theorem generatable_of_mem_candidates {candidate : Candidate}
    (h : candidate ∈ (constantClaims specs).granted) :
    candidate.spec.key ∈ generatableKeys specs ∧
      candidate.constant = constantName candidate.spec.key ∧
      ¬IsUnusable (constantName candidate.spec.key) := by
  obtain ⟨before, spec, after, hsplit, hclaim⟩ := mem_granted_iff.mp h
  obtain ⟨rfl, hsignature, hread, hconstant, husable, _⟩ := candidate_of_claimConstant hclaim
  have hmem : candidate.spec ∈ specs.specs.values := by simp [hsplit]
  refine ⟨mem_generatableKeys_iff.mpr ⟨_, hmem, _, rfl, hsignature, hread⟩, hconstant, ?_⟩
  rw [← hconstant, ← isUsableConstant_eq_false_iff, husable]
  decide

/-- The names that are taken when the first messages have claimed their constants. -/
def takenAfter (specs : MessageSpecs) (before : List MessageSpec) : List Text :=
  (claimAll (claimConstant specs) (fun c => [c.constant]) reservedConstants before).taken

/-- The claim of a message that can have an accessor, in its place among the others. -/
theorem exists_claim_of_generatable (h : IsKeyed specs) {key : Text}
    (hkey : key ∈ generatableKeys specs) :
    ∃ before spec after signature template, specs.specs.values = before ++ spec :: after ∧
      spec.key = key ∧ claimConstant specs (takenAfter specs before) spec =
        if isUsableConstant (constantName key) = false then
          .error (.unusableConstant (constantName key))
        else if constantName key ∈ takenAfter specs before then
          .error (.constantTaken (constantName key))
        else .ok ⟨spec, signature, template, constantName key⟩ := by
  obtain ⟨spec, hspec, signature, rfl, hsignature, hread⟩ := mem_generatableKeys_iff.mp hkey
  obtain ⟨template, hmain⟩ := h.main spec hspec
  obtain ⟨before, after, hsplit⟩ := List.append_of_mem hspec
  exact ⟨before, spec, after, signature, template, hsplit, rfl,
    claimConstant_of_readable hsignature hread hmain _⟩

/-- The constants taken before a message are those of the candidates with smaller keys. -/
theorem mem_takenAfter_iff (h : IsKeyed specs) {before after : List MessageSpec}
    {spec : MessageSpec} (hsplit : specs.specs.values = before ++ spec :: after) {name : Text} :
    name ∈ takenAfter specs before ↔
      name ∈ reservedConstants ∨ ∃ candidate ∈ (constantClaims specs).granted,
        compare candidate.spec.key spec.key = .lt ∧ name ∈ [candidate.constant] := by
  have hascending := hsplit ▸ h.ascending
  rw [constantClaims, hsplit]
  exact mem_taken_iff_of_ascending (fun _ _ _ hclaim => key_of_claimConstant hclaim) hascending

/-- A usable constant of a message that can have an accessor is granted to that message or to an
earlier one. -/
theorem exists_candidate_of_generatable (h : IsKeyed specs) {key : Text}
    (hkey : key ∈ generatableKeys specs) (husable : ¬IsUnusable (constantName key)) :
    ∃ candidate ∈ (constantClaims specs).granted, candidate.constant = constantName key ∧
      (candidate.spec.key = key ∨ compare candidate.spec.key key = .lt) := by
  obtain ⟨before, spec, after, signature, template, hsplit, rfl, hclaim⟩ :=
    exists_claim_of_generatable h hkey
  rw [if_neg (isUsableConstant_eq_false_iff.not.mpr husable)] at hclaim
  -- if the message finds the constant taken, it was a smaller key that took it
  by_cases htaken : constantName spec.key ∈ takenAfter specs before
  · rcases (mem_takenAfter_iff h hsplit).mp htaken with hreserved | ⟨candidate, hmem, hlt, hname⟩
    · exact absurd (.inr hreserved) husable
    · exact ⟨candidate, hmem, (List.mem_singleton.mp hname).symm, .inr hlt⟩
  · rw [if_neg htaken] at hclaim
    exact ⟨_, mem_granted_iff.mpr ⟨before, spec, after, hsplit, hclaim⟩, rfl, .inl rfl⟩

/-- A usable constant is taken before its message exactly when the message is not the first one with
it. -/
theorem constant_mem_takenAfter_iff (h : IsKeyed specs) {before after : List MessageSpec}
    {spec : MessageSpec} (hsplit : specs.specs.values = before ++ spec :: after)
    (husable : ¬IsUnusable (constantName spec.key)) :
    constantName spec.key ∈ takenAfter specs before ↔
      ∃ earlier ∈ generatableKeys specs, compare earlier spec.key = .lt ∧
        constantName earlier = constantName spec.key := by
  rw [mem_takenAfter_iff h hsplit]
  constructor
  · rintro (hreserved | ⟨candidate, hmem, hlt, hname⟩)
    · exact absurd (.inr hreserved) husable
    · obtain ⟨hgeneratable, hconstant, _⟩ := generatable_of_mem_candidates hmem
      rw [List.mem_singleton, hconstant] at hname
      exact ⟨_, hgeneratable, hlt, hname.symm⟩
  · rintro ⟨earlier, hearlier, hlt, hname⟩
    obtain ⟨candidate, hmem, hconstant, hkey⟩ :=
      exists_candidate_of_generatable h hearlier (hname ▸ husable)
    refine .inr ⟨candidate, hmem, ?_, by rw [List.mem_singleton, hconstant, hname]⟩
    rcases hkey with heq | hbefore
    · rwa [heq]
    · exact Std.TransCmp.lt_trans hbefore hlt

/-- **The first of the messages with one constant keeps it.** -/
theorem mem_candidates_iff (h : IsKeyed specs) {key : Text} :
    (∃ candidate ∈ (constantClaims specs).granted, candidate.spec.key = key) ↔
      key ∈ generatableKeys specs ∧ ¬IsUnusable (constantName key) ∧ IsFirst specs key := by
  constructor
  · rintro ⟨candidate, hmem, rfl⟩
    obtain ⟨hgeneratable, _, husable⟩ := generatable_of_mem_candidates hmem
    obtain ⟨before, spec, after, hsplit, hclaim⟩ := mem_granted_iff.mp hmem
    obtain ⟨rfl, _, _, hconstant, _, hfree⟩ := candidate_of_claimConstant hclaim
    refine ⟨hgeneratable, husable, fun earlier hearlier hlt hname => hfree ?_⟩
    rw [hconstant]
    exact (constant_mem_takenAfter_iff h hsplit husable).mpr ⟨earlier, hearlier, hlt, hname⟩
  · rintro ⟨hkey, husable, hfirst⟩
    obtain ⟨before, spec, after, signature, template, hsplit, rfl, hclaim⟩ :=
      exists_claim_of_generatable h hkey
    have hfree : constantName spec.key ∉ takenAfter specs before := by
      rw [constant_mem_takenAfter_iff h hsplit husable]
      rintro ⟨earlier, hearlier, hlt, hname⟩
      exact hfirst earlier hearlier hlt hname
    rw [if_neg (isUsableConstant_eq_false_iff.not.mpr husable), if_neg hfree] at hclaim
    exact ⟨_, mem_granted_iff.mpr ⟨before, spec, after, hsplit, hclaim⟩, rfl⟩

/-- The first pass refuses messages by the rule. -/
theorem skips_of_mem_refused (h : IsKeyed specs) {spec : MessageSpec} {reason : SkipReason}
    (hmem : (spec, reason) ∈ (constantClaims specs).refused) : Skips specs spec.key reason := by
  obtain ⟨before, after, hsplit, hclaim⟩ := mem_refused_iff.mp hmem
  have hspec : spec ∈ specs.specs.values := by simp [hsplit]
  cases hsignature : spec.signature with
  | none =>
    simp only [claimConstant, hsignature, Except.error.injEq] at hclaim
    exact hclaim ▸ .noSignature hspec hsignature
  | some signature =>
  cases hread : specs.hasParseError spec.key with
  | true =>
    simp only [claimConstant, hsignature, hread, if_true, Except.error.injEq] at hclaim
    exact hclaim ▸ .localeUnreadable hspec (by simp [hsignature]) hread
  | false =>
    have hkey := mem_generatableKeys_iff.mpr ⟨spec, hspec, signature, rfl, hsignature, hread⟩
    obtain ⟨template, hmain⟩ := h.main spec hspec
    rw [claimConstant_of_readable hsignature hread hmain] at hclaim
    split_ifs at hclaim with husable htaken
    · cases hclaim
      exact .unusableConstant hkey (isUsableConstant_eq_false_iff.mp husable)
    · cases hclaim
      have husable := isUsableConstant_eq_false_iff.not.mp husable
      obtain ⟨earlier, hearlier, hlt, hname⟩ :=
        (constant_mem_takenAfter_iff h hsplit husable).mp htaken
      exact .constantTaken hkey husable hearlier hlt hname

/-- A message whose claim fails in its place is skipped for the reason of the failure. -/
theorem mem_refused_of_claim {key : Text} {before after : List MessageSpec} {spec : MessageSpec}
    {reason : SkipReason} (hsplit : specs.specs.values = before ++ spec :: after)
    (hclaim : claimConstant specs (takenAfter specs before) spec = .error reason)
    (hkey : spec.key = key) :
    ⟨key, reason⟩ ∈ (constantClaims specs).refused.map skippedSpec :=
  List.mem_map.mpr ⟨(spec, reason), mem_refused_iff.mpr ⟨before, after, hsplit, hclaim⟩, by
    rw [skippedSpec, hkey]⟩

/-! ## Section 4: Types -/

/-- The names that are taken when the first type is chosen: a message that loses its constant to an
earlier one leaves the same name taken. -/
theorem mem_taken_constantClaims_iff (h : IsKeyed specs) {name : Text} :
    name ∈ (constantClaims specs).taken ↔
      name ∈ reservedConstants ∨ ∃ other ∈ generatableKeys specs,
        ¬IsUnusable (constantName other) ∧ constantName other = name := by
  rw [(perm_taken_constantClaims specs).mem_iff, List.mem_append, or_comm, List.mem_map]
  refine or_congr_right ⟨?_, ?_⟩
  · rintro ⟨candidate, hmem, rfl⟩
    obtain ⟨hgeneratable, hconstant, husable⟩ := generatable_of_mem_candidates hmem
    exact ⟨_, hgeneratable, husable, hconstant.symm⟩
  · rintro ⟨other, hother, husable, rfl⟩
    obtain ⟨candidate, hmem, hconstant, _⟩ := exists_candidate_of_generatable h hother husable
    exact ⟨candidate, hmem, hconstant⟩

/-- **The names that are taken when the type of a message is chosen.** -/
theorem mem_taken_iff (h : IsKeyed specs) {before after : List Candidate} {candidate : Candidate}
    (hsplit : (constantClaims specs).granted = before ++ candidate :: after) {name : Text} :
    name ∈ (claimAll (claimPlan specs.keyPrefix) Plan.typeNames (constantClaims specs).taken
        before).taken ↔ TakenBefore specs candidate.spec.key name := by
  have hcandidates : Ascending ((constantClaims specs).granted.map fun c => c.spec.key) :=
    h.ascending.sublist
      (sublist_granted (fun _ _ _ hclaim => key_of_claimConstant hclaim) _ _)
  have hplans : (planAll specs).1 = (claimAll (claimPlan specs.keyPrefix) Plan.typeNames
      (constantClaims specs).taken (before ++ candidate :: after)).granted := by
    rw [planAll_eq, typeClaims, hsplit]
  rw [mem_taken_iff_of_ascending (fun _ _ _ hclaim => key_of_claimPlan hclaim)
    (hsplit ▸ hcandidates), mem_taken_constantClaims_iff h, ← hplans]
  constructor
  · rintro ((hreserved | ⟨other, hother, husable, rfl⟩) | ⟨plan, hplan, hlt, hname⟩)
    · exact .reserved hreserved
    · exact .constant hother husable
    · simp only [Plan.typeNames, List.mem_cons, List.not_mem_nil, or_false] at hname
      rcases hname with rfl | rfl
      · exact .builder hplan hlt
      · exact .type hplan hlt
  · intro htaken
    cases htaken with
    | reserved hreserved => exact .inl (.inl hreserved)
    | constant hother husable => exact .inl (.inr ⟨_, hother, husable, rfl⟩)
    | type hplan hlt => exact .inr ⟨_, hplan, hlt, by simp [Plan.typeNames]⟩
    | builder hplan hlt => exact .inr ⟨_, hplan, hlt, by simp [Plan.typeNames]⟩

/-- A usable constant names a type: something is left of it between the underscores. -/
theorem exists_typeName? {constant : Text} (h : ¬IsUnusable constant) :
    ∃ base, typeName? constant = some base := by
  have hne : (constant.splitOn '_').flatMap camelPart ≠ [] := by
    intro hempty
    refine h (.inl fun c hc => ?_)
    by_contra hplain
    have hmem : c ∈ (constant.splitOn '_').flatten := by
      rw [flatten_splitOn]
      simp [hc, hplain]
    obtain ⟨part, hpart, hc⟩ := List.mem_flatten.mp hmem
    have hpartEmpty := List.flatMap_eq_nil_iff.mp hempty part hpart
    cases part with
    | nil => simp at hc
    | cons d part => simp [camelPart] at hpartEmpty
  simp only [typeName?, if_neg hne]
  exact ⟨_, rfl⟩

theorem claimType_eq_error_iff {taken : List Text} {constant base : Text} {reason : SkipReason}
    (hbase : typeName? constant = some base) :
    claimType taken constant = .error reason ↔
      isFree taken base = false ∧ isFree taken (base ++ "Message".toList) = false ∧
        reason = .typeTaken base := by
  simp only [claimType, hbase]
  split_ifs with hfree hfallback
  · simp [hfree]
  · simp only [hfallback, Bool.true_eq_false, false_and, and_false]
  · simp only [Except.error.injEq, hfree, hfallback, true_and]
    exact eq_comm

/-- A type name is free in the second pass exactly when the rule does not say that it is taken. -/
theorem isFree_eq_false_iff (h : IsKeyed specs) {before after : List Candidate}
    {candidate : Candidate} (hsplit : (constantClaims specs).granted = before ++ candidate :: after)
    {typeName : Text} :
    isFree (claimAll (claimPlan specs.keyPrefix) Plan.typeNames (constantClaims specs).taken
        before).taken typeName = false ↔ IsTypeTaken specs candidate.spec.key typeName := by
  rw [IsTypeTaken, ← mem_taken_iff h hsplit, ← mem_taken_iff h hsplit]
  simp only [isFree, Bool.and_eq_false_iff, Bool.not_eq_false', List.contains_iff_mem]

/-- What the second pass refuses, and why. -/
theorem refused_claimPlan_iff (h : IsKeyed specs) {before after : List Candidate}
    {candidate : Candidate} (hsplit : (constantClaims specs).granted = before ++ candidate :: after)
    {reason : SkipReason} :
    claimPlan specs.keyPrefix (claimAll (claimPlan specs.keyPrefix) Plan.typeNames
        (constantClaims specs).taken before).taken candidate = .error reason ↔
      ∃ base, typeName? (constantName candidate.spec.key) = some base ∧
        IsTypeTaken specs candidate.spec.key base ∧
        IsTypeTaken specs candidate.spec.key (base ++ "Message".toList) ∧
        reason = .typeTaken base := by
  have hmem : candidate ∈ (constantClaims specs).granted := by simp [hsplit]
  obtain ⟨_, hconstant, husable⟩ := generatable_of_mem_candidates hmem
  obtain ⟨base, hbase⟩ := exists_typeName? husable
  rw [claimPlan_eq_error_iff, hconstant, claimType_eq_error_iff hbase, isFree_eq_false_iff h hsplit,
    isFree_eq_false_iff h hsplit]
  simp only [hbase, Option.some.injEq, exists_eq_left']

/-! ## Section 5: Skipped messages -/

theorem skips_of_mem_skipped (h : IsKeyed specs) {s : Skipped} (hs : s ∈ (planAll specs).2) :
    Skips specs s.key s.reason := by
  rw [planAll_eq] at hs
  rcases List.mem_append.mp hs with hs | hs
  · obtain ⟨⟨spec, reason⟩, hmem, rfl⟩ := List.mem_map.mp hs
    exact skips_of_mem_refused h hmem
  · obtain ⟨⟨candidate, reason⟩, hmem, rfl⟩ := List.mem_map.mp hs
    obtain ⟨before, after, hsplit, hclaim⟩ := mem_refused_iff.mp hmem
    obtain ⟨base, hbase, htaken, hfallback, rfl⟩ := (refused_claimPlan_iff h hsplit).mp hclaim
    obtain ⟨hkey, husable, hfirst⟩ :=
      (mem_candidates_iff h).mp ⟨candidate, by simp [hsplit], rfl⟩
    exact .typeTaken hkey husable hfirst hbase htaken hfallback

theorem mem_skipped_of_skips (h : IsKeyed specs) {key : Text} {reason : SkipReason}
    (hskips : Skips specs key reason) : ⟨key, reason⟩ ∈ (planAll specs).2 := by
  rw [planAll_eq]
  cases hskips with
  | @noSignature spec hspec hsignature =>
    obtain ⟨before, after, hsplit⟩ := List.append_of_mem hspec
    refine List.mem_append_left _ (mem_refused_of_claim hsplit ?_ rfl)
    simp only [claimConstant, hsignature]
  | @localeUnreadable spec hspec hsignature hread =>
    obtain ⟨before, after, hsplit⟩ := List.append_of_mem hspec
    obtain ⟨signature, hsome⟩ := Option.ne_none_iff_exists'.mp hsignature
    refine List.mem_append_left _ (mem_refused_of_claim hsplit ?_ rfl)
    simp only [claimConstant, hsome, hread, if_true]
  | unusableConstant hkey hunusable =>
    obtain ⟨before, spec, after, _, _, hsplit, hspec, hclaim⟩ := exists_claim_of_generatable h hkey
    rw [if_pos (isUsableConstant_eq_false_iff.mpr hunusable)] at hclaim
    exact List.mem_append_left _ (mem_refused_of_claim hsplit hclaim hspec)
  | constantTaken hkey husable hearlier hlt hname =>
    obtain ⟨before, spec, after, _, _, hsplit, rfl, hclaim⟩ := exists_claim_of_generatable h hkey
    have htaken := (constant_mem_takenAfter_iff h hsplit husable).mpr ⟨_, hearlier, hlt, hname⟩
    rw [if_neg (isUsableConstant_eq_false_iff.not.mpr husable), if_pos htaken] at hclaim
    exact List.mem_append_left _ (mem_refused_of_claim hsplit hclaim rfl)
  | typeTaken hkey husable hfirst hbase htaken hfallback =>
    obtain ⟨candidate, hmem, rfl⟩ := (mem_candidates_iff h).mpr ⟨hkey, husable, hfirst⟩
    obtain ⟨before, after, hsplit⟩ := List.append_of_mem hmem
    have hclaim := (refused_claimPlan_iff h hsplit).mpr ⟨_, hbase, htaken, hfallback, rfl⟩
    exact List.mem_append_right _
      (List.mem_map.mpr ⟨_, mem_refused_iff.mpr ⟨before, after, hsplit, hclaim⟩, rfl⟩)

/-- **Planning skips by the rule.** -/
theorem mem_skipped_iff (h : IsKeyed specs) {key : Text} {reason : SkipReason} :
    ⟨key, reason⟩ ∈ (planAll specs).2 ↔ Skips specs key reason :=
  ⟨skips_of_mem_skipped h, mem_skipped_of_skips h⟩

/-- The accessors stand in key order. -/
theorem sublist_planAll (specs : MessageSpecs) :
    ((planAll specs).1.map Plan.key).Sublist (specs.specs.values.map MessageSpec.key) := by
  rw [planAll_eq]
  have hplans : ((typeClaims specs).granted.map Plan.key).Sublist
      ((constantClaims specs).granted.map fun c => c.spec.key) :=
    sublist_granted (fun _ _ _ hclaim => key_of_claimPlan hclaim) _ _
  exact hplans.trans (sublist_granted (fun _ _ _ hclaim => key_of_claimConstant hclaim) _ _)

/-- **Each message gets an accessor or is skipped**, and only once. -/
theorem perm_planAll (specs : MessageSpecs) :
    ((planAll specs).1.map Plan.key ++ (planAll specs).2.map Skipped.key).Perm
      (specs.specs.values.map MessageSpec.key) := by
  have hconstants : ((constantClaims specs).granted.map (fun c => c.spec.key) ++
      (constantClaims specs).refused.map (·.1.key)).Perm
        (specs.specs.values.map MessageSpec.key) :=
    perm_granted_refused (fun _ _ _ hclaim => key_of_claimConstant hclaim) _ _
  have htypes : ((typeClaims specs).granted.map Plan.key ++
      (typeClaims specs).refused.map (·.1.spec.key)).Perm
        ((constantClaims specs).granted.map fun c => c.spec.key) :=
    perm_granted_refused (fun _ _ _ hclaim => key_of_claimPlan hclaim) _ _
  rw [planAll_eq, List.map_append, List.map_map, List.map_map]
  refine List.Perm.trans ?_ ((htypes.append_right _).trans hconstants)
  rw [List.append_assoc]
  exact (List.perm_append_comm).append_left _

/-- **A message gets an accessor exactly when the rule does not skip it.** -/
theorem mem_accessors_iff (h : IsKeyed specs) {key : Text} :
    key ∈ (planAll specs).1.map Plan.key ↔
      key ∈ specs.specs.values.map MessageSpec.key ∧ ∀ reason, ¬Skips specs key reason := by
  have hperm := perm_planAll specs
  have hdisjoint := List.disjoint_of_nodup_append (hperm.nodup_iff.mpr h.ascending.nodup)
  constructor
  · intro hmem
    refine ⟨hperm.mem_iff.mp (List.mem_append_left _ hmem), fun reason hskips => ?_⟩
    exact hdisjoint hmem (List.mem_map_of_mem (mem_skipped_of_skips h hskips))
  · rintro ⟨hmem, hskips⟩
    rcases List.mem_append.mp (hperm.mem_iff.mpr hmem) with hplan | hskipped
    · exact hplan
    · obtain ⟨s, hs, rfl⟩ := List.mem_map.mp hskipped
      exact absurd (skips_of_mem_skipped h hs) (hskips s.reason)

/-- No message gets an accessor exactly when the rule skips all of them. -/
theorem planAll_eq_nil_iff (h : IsKeyed specs) :
    (planAll specs).1 = [] ↔
      ∀ key ∈ specs.specs.values.map MessageSpec.key, ∃ reason, Skips specs key reason := by
  rw [← List.map_eq_nil_iff, List.eq_nil_iff_forall_not_mem]
  refine forall_congr' fun key => ?_
  rw [mem_accessors_iff h, not_and, not_forall]
  simp only [not_not]

/-- The rule knows no message without a main template, and no usable constant without a type. -/
theorem Skips.reason_ne {key : Text} {reason : SkipReason} (h : Skips specs key reason) :
    reason ≠ .noMainTemplate ∧ ∀ constant, reason ≠ .noTypeName constant := by
  cases h <;> simp

/-- A message that cannot have an accessor is skipped for that. -/
theorem exists_skips_of_not_mem {key : Text} (hkey : key ∈ specs.specs.values.map MessageSpec.key)
    (hnot : key ∉ generatableKeys specs) : ∃ reason, Skips specs key reason := by
  obtain ⟨spec, hspec, rfl⟩ := List.mem_map.mp hkey
  cases hsignature : spec.signature with
  | none => exact ⟨_, .noSignature hspec hsignature⟩
  | some signature =>
    cases hread : specs.hasParseError spec.key with
    | true => exact ⟨_, .localeUnreadable hspec (by simp [hsignature]) hread⟩
    | false =>
      exact absurd (mem_generatableKeys_iff.mpr ⟨spec, hspec, _, rfl, hsignature, hread⟩) hnot

/-- A message that can have an accessor is skipped for its names only. -/
theorem reason_of_generatable (h : IsKeyed specs) {key : Text} {reason : SkipReason}
    (hkey : key ∈ generatableKeys specs) (hskips : Skips specs key reason) :
    reason ≠ .noSignature ∧ reason ≠ .localeUnreadable := by
  obtain ⟨spec, hspec, signature, rfl, hsignature, hread⟩ := mem_generatableKeys_iff.mp hkey
  generalize hname : spec.key = key at hskips
  cases hskips with
  | noSignature hspec' hnone =>
    obtain rfl := h.eq_of_key hspec hspec' hname
    rw [hsignature] at hnone
    exact absurd hnone (by simp)
  | localeUnreadable _ _ herror =>
    rw [← hname, hread] at herror
    exact absurd herror (by simp)
  | unusableConstant => simp
  | constantTaken => simp
  | typeTaken => simp

end Keyed

/-! ## Section 6: Generated accessors -/

/-- Skipped messages in key order, each key once. -/
theorem ascending_skipped {skipped : List Skipped} (h : (skipped.map Skipped.key).Nodup) :
    Ascending ((skipped.mergeSort fun a b => (compare a.key b.key).isLE).map Skipped.key) := by
  have hperm := List.mergeSort_perm skipped fun a b => (compare a.key b.key).isLE
  have hnodup := (hperm.map Skipped.key).nodup_iff.mpr h
  have hsorted : Sorted (compareOn Skipped.key)
      (skipped.mergeSort fun a b => (compare a.key b.key).isLE) := sorted_mergeSort skipped
  rw [List.Nodup, List.pairwise_map] at hnodup
  refine List.pairwise_map.mpr ((hsorted.and hnodup).imp ?_)
  rintro a b ⟨hle, hne⟩
  cases hcompare : compare a.key b.key with
  | lt => rfl
  | eq => exact absurd (Std.LawfulEqCmp.eq_of_compare hcompare) hne
  | gt =>
    rw [compareOn, hcompare] at hle
    exact absurd hle (by decide)

open Validation in
/-- **What a generation gives for a validated bundle.** It fails exactly when the rule skips every
key of the main locale. Otherwise the accessors and the skipped messages hold each of these keys
once, in key order, and a message is skipped for the reason that the rule gives. -/
theorem generate_validated (b : Bundle) (maps : Table LocaleTag LocaleMessages)
    (options : Options) :
    let specs := b.validate maps
    let keys := (mainMessages b maps).keys
    ((generate options specs).result = .error (.emptyBundle b.name) ↔
        ∀ key ∈ keys, ∃ reason, Skips specs key reason) ∧
      ((generate options specs).result = .error (.emptyBundle b.name) ∨
        ∃ generated, (generate options specs).result = .ok generated ∧
          (generated.accessors ++ generated.skipped.map Skipped.key).Perm keys ∧
          Ascending generated.accessors ∧ Ascending (generated.skipped.map Skipped.key) ∧
          ∀ key reason, ⟨key, reason⟩ ∈ generated.skipped ↔ Skips specs key reason) ∧
      (∀ key ∈ keys, key ∉ generatableKeys specs → ∃ reason, Skips specs key reason) ∧
      (∀ key ∈ generatableKeys specs, ∀ reason, Skips specs key reason →
        reason ≠ .noSignature ∧ reason ≠ .localeUnreadable) ∧
      ∀ s ∈ (planAll specs).2, s.reason ≠ .noMainTemplate ∧
        ∀ constant, s.reason ≠ .noTypeName constant := by
  intro specs keys
  have h : IsKeyed specs := isKeyed_validate b maps
  have hkeys : specs.specs.values.map MessageSpec.key = keys := by
    rw [h.keys, Table.keys, entries_specs, List.map_map]
    rfl
  have hnil : (planAll specs).1 = [] ↔ ∀ key ∈ keys, ∃ reason, Skips specs key reason :=
    hkeys ▸ planAll_eq_nil_iff h
  have hperm : ((planAll specs).1.map Plan.key ++ (planAll specs).2.map Skipped.key).Perm keys :=
    hkeys ▸ perm_planAll specs
  have hascending : Ascending keys := hkeys ▸ h.ascending
  have hsort := List.mergeSort_perm (planAll specs).2 fun a b => (compare a.key b.key).isLE
  refine ⟨?_, ?_, fun key hkey => exists_skips_of_not_mem (hkeys ▸ hkey),
    fun key hkey reason => reason_of_generatable h hkey, ?_⟩
  · rw [result_generate, ← hnil]
    split
    · rename_i hempty
      exact iff_of_true rfl hempty
    · rename_i hne
      exact iff_of_false (by simp) hne
  · rw [result_generate]
    split
    · exact .inl rfl
    · refine .inr ⟨_, rfl, ?_, ?_, ?_, fun key reason => ?_⟩
      · exact ((hsort.map Skipped.key).append_left _).trans hperm
      · exact hascending.sublist (hkeys ▸ sublist_planAll specs)
      · have hnodup := (hperm.nodup_iff.mpr hascending.nodup).of_append_right
        exact ascending_skipped hnodup
      · exact hsort.mem_iff.trans (mem_skipped_iff h)
  · exact fun s hs => (skips_of_mem_skipped h hs).reason_ne

/-- Two keys with one constant, a reserved constant, a malformed template, and a key whose type is
its own constant while the type with `Message` after it belongs to another key. -/
theorem generate_validated_colliding :
    let en : LocaleTag := ⟨"en".toList, none, none, []⟩
    let fr : LocaleTag := ⟨"fr".toList, none, none, []⟩
    let b : Bundle :=
      ⟨"m".toList, [], en, [en, fr], [], .lastRootWins, by unfold Ordered.Ascending; decide,
        by decide⟩
    let texts : List (Text × Text) :=
      ["X.message", "good.one", "good_one", "keys", "late", "x"].map fun key =>
        (key.toList, "Text".toList)
    let maps : Table LocaleTag LocaleMessages := Table.ofList
      [(en, .ofList en texts), (fr, .ofList fr (texts ++ [("late".toList, "Tard \x7b0".toList)]))]
    let specs := b.validate maps
    ∃ generated, (generate .standard specs).result = .ok generated ∧
      generated.accessors = ["X.message", "good.one"].map String.toList ∧
      generated.skipped =
        [⟨"good_one".toList, .constantTaken "GOOD_ONE".toList⟩,
          ⟨"keys".toList, .unusableConstant "KEYS".toList⟩, ⟨"late".toList, .localeUnreadable⟩,
          ⟨"x".toList, .typeTaken "X".toList⟩] ∧
      (generated.accessors ++ generated.skipped.map Skipped.key).Perm
        (Validation.mainMessages b maps).keys ∧
      ∀ s ∈ generated.skipped, Skips specs s.key s.reason := by
  intro en fr b texts maps specs
  obtain ⟨_, hresult, _⟩ := generate_validated b maps .standard
  have hplans : (planAll specs).1.map Plan.key = ["X.message", "good.one"].map String.toList := by
    decide +kernel
  have hskips : (planAll specs).2 =
      [⟨"good_one".toList, .constantTaken "GOOD_ONE".toList⟩,
        ⟨"keys".toList, .unusableConstant "KEYS".toList⟩, ⟨"late".toList, .localeUnreadable⟩,
        ⟨"x".toList, .typeTaken "X".toList⟩] := by
    decide +kernel
  have hne : (planAll specs).1 ≠ [] := fun hempty => by rw [hempty] at hplans; simp at hplans
  rcases hresult with hempty | ⟨generated, hok, hperm, _, _, hskipped⟩
  · rw [result_generate, if_neg hne] at hempty
    simp only [reduceCtorEq] at hempty
  have hgenerated := hok
  rw [result_generate, if_neg hne] at hgenerated
  have hgenerated := Except.ok.inj hgenerated
  have haccessors : generated.accessors = (planAll specs).1.map Plan.key := by rw [← hgenerated]
  have hsorted : generated.skipped = (planAll specs).2 := by
    rw [← hgenerated]
    exact List.mergeSort_of_pairwise (by rw [hskips]; decide)
  exact ⟨generated, hok, haccessors.trans hplans, hsorted.trans hskips, hperm,
    fun s hs => (hskipped s.key s.reason).mp hs⟩

end MessageCatalog.Accessor
