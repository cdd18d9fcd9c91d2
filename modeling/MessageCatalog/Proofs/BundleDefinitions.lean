import MessageCatalog.Proofs.CanonicalTags
import MessageCatalog.Settings.Problems
import Mathlib.Data.List.Forall2

/-!
# Which bundles can be built

A definition of a bundle is checked by its builder, and the settings that it is taken from are
checked by rules of their own. The two agree on tags and roots. Of the base name the rules ask only
that it is not blank, while the builder also asks that none of its parts between dots is empty: so
there are settings without problems whose bundle cannot be built.

## Main statements

* `build_eq_ok_iff` : what a definition builds, and when it does
* `canonical_of_build` : the tracked locales of a bundle that is built are canonical
* `exists_build_iff` : a definition can be built when it passes every check of the builder
* `exists_build_iff_of_settings` : the bundle of some settings can be built when they have no
  problems and no part of the base name is empty
* `dotted_name_not_built` : settings without problems whose bundle cannot be built
-/

namespace MessageCatalog

open Text

namespace BundleDefinition

/-! ## Section 1: What a definition builds -/

/-- All locales are read, each from its tag. -/
theorem readTags_eq_ok_iff {tags : List Text} {locales : List LocaleTag} :
    readTags tags = .ok locales ↔
      List.Forall₂ (fun tag locale => readTag tag = .ok locale) tags locales := by
  induction tags generalizing locales with
  | nil => simp [readTags, eq_comm]
  | cons tag tags ih =>
    simp only [readTags, bind_eq_ok_iff, List.forall₂_cons_left_iff]
    constructor
    · rintro ⟨locale, htag, locales', htags, heq⟩
      exact ⟨locale, locales', htag, ih.mp htags, (Except.ok.inj heq).symm⟩
    · rintro ⟨locale, locales', htag, htags, rfl⟩
      exact ⟨locale, htag, locales', ih.mpr htags, rfl⟩

/-- Each locale that is read is that of a tag. -/
theorem exists_readTag_of_mem {tags : List Text} {locales : List LocaleTag} {locale : LocaleTag}
    (h : readTags tags = .ok locales) (hmem : locale ∈ locales) :
    ∃ tag ∈ tags, readTag tag = .ok locale := by
  have hpairs := readTags_eq_ok_iff.mp h
  clear h
  induction hpairs with
  | nil => cases hmem
  | cons htag _ ih =>
    rcases List.mem_cons.mp hmem with rfl | hrest
    · exact ⟨_, List.mem_cons_self, htag⟩
    · obtain ⟨tag, htags, hread⟩ := ih hrest
      exact ⟨tag, List.mem_cons_of_mem _ htags, hread⟩

/-- All tags can be read exactly when each of them can. -/
theorem exists_readTags_iff {tags : List Text} :
    (∃ locales, readTags tags = .ok locales) ↔
      ∀ tag ∈ tags, ∃ locale, readTag tag = .ok locale := by
  induction tags with
  | nil => simp [readTags]
  | cons tag tags ih =>
    rw [List.forall_mem_cons, ← ih]
    simp only [readTags_eq_ok_iff, List.forall₂_cons_left_iff]
    constructor
    · rintro ⟨_, locale, locales, htag, htags, rfl⟩
      exact ⟨⟨locale, htag⟩, locales, htags⟩
    · rintro ⟨⟨locale, htag⟩, locales, htags⟩
      exact ⟨_, locale, locales, htag, htags, rfl⟩

/-- A base name can name files exactly when none of its parts between dots is empty. -/
theorem isBaseName_iff {name : Text} : isBaseName name = true ↔ [] ∉ name.splitOn '.' := by
  have hparts : ((name.splitOn '.').all fun part => part != []) = true ↔ [] ∉ name.splitOn '.' := by
    simp only [List.all_eq_true, bne_iff_ne]
    exact ⟨fun h hmem => h [] hmem rfl, fun h part hpart hnil => h (hnil ▸ hpart)⟩
  rw [isBaseName, Bool.and_eq_true, hparts, bne_iff_ne]
  -- the empty name has an empty part
  exact and_iff_right_of_imp fun h hnil => h (by simp [hnil])

theorem ascending_tracked (mainLocale : LocaleTag) (others : List LocaleTag) :
    Ordered.Ascending (Ordered.insertAll [mainLocale] others) :=
  Ordered.ascending_insertAll (List.pairwise_singleton _ _)

theorem mainLocale_mem_tracked (mainLocale : LocaleTag) (others : List LocaleTag) :
    mainLocale ∈ Ordered.insertAll [mainLocale] others :=
  Ordered.mem_insertAll_of_mem List.mem_cons_self

/-- The bundle of a definition, given the locales that its tags name. -/
def built (d : BundleDefinition) (mainLocale : LocaleTag) (others : List LocaleTag) : Bundle where
  name := trim d.name
  keyPrefix := Bundle.normalizePrefix d.keyPrefix
  mainLocale := mainLocale
  locales := Ordered.insertAll [mainLocale] others
  roots := d.roots
  overridePolicy := d.overridePolicy
  ascending := ascending_tracked mainLocale others
  main_mem := mainLocale_mem_tracked mainLocale others

/-- **The checks of the builder in turn**: the name, the main locale, the roots, and the tags. -/
theorem build_eq (d : BundleDefinition) :
    d.build =
      if isBaseName (trim d.name) then
        match d.mainLocale with
        | none => .error .mainLocaleNotSet
        | some mainTag =>
          if d.roots = [] then .error .noRoots
          else do
            let mainLocale ← readTag mainTag
            let others ← readTags d.locales
            .ok (d.built mainLocale others)
      else .error (.invalidName d.name) := by
  unfold build
  cases hname : isBaseName (trim d.name) with
  | false =>
    simp only [hname]
    rfl
  | true =>
    cases hmain : d.mainLocale with
    | none =>
      simp only [hname]
      rfl
    | some mainTag =>
      cases hroots : d.roots with
      | nil =>
        simp only [hname, List.isEmpty_nil]
        rfl
      | cons root roots =>
        simp only [hname, List.isEmpty_cons]
        simp [built, hroots, pure, Except.pure]

/-- **What a definition builds, and when it does.** -/
theorem build_eq_ok_iff {d : BundleDefinition} {b : Bundle} :
    d.build = .ok b ↔
      isBaseName (trim d.name) = true ∧ d.roots ≠ [] ∧
        ∃ mainTag mainLocale others, d.mainLocale = some mainTag ∧
          readTag mainTag = .ok mainLocale ∧ readTags d.locales = .ok others ∧
          b = d.built mainLocale others := by
  rw [build_eq]
  cases hname : isBaseName (trim d.name) with
  | false => simp
  | true =>
    cases hmain : d.mainLocale with
    | none => simp
    | some mainTag =>
      by_cases hroots : d.roots = []
      · simp [hroots]
      · simp only [if_true, if_neg hroots, bind_eq_ok_iff, Except.ok.injEq]
        constructor
        · rintro ⟨mainLocale, htag, others, htags, rfl⟩
          exact ⟨trivial, hroots, mainTag, mainLocale, others, rfl, htag, htags, rfl⟩
        · rintro ⟨-, -, _, mainLocale, others, heq, htag, htags, rfl⟩
          cases heq
          exact ⟨mainLocale, htag, others, htags, rfl⟩

/-- Each tracked locale of a bundle that is built has been read from a text. -/
theorem exists_readTag_of_build {d : BundleDefinition} {b : Bundle} {tag : LocaleTag}
    (h : d.build = .ok b) (htag : tag ∈ b.locales) : ∃ source, readTag source = .ok tag := by
  obtain ⟨_, _, mainTag, mainLocale, others, _, hmain, hothers, rfl⟩ := build_eq_ok_iff.mp h
  rcases Ordered.mem_or_mem_of_mem_insertAll htag with hmem | hmem
  · rw [List.mem_singleton.mp hmem]
    exact ⟨mainTag, hmain⟩
  · obtain ⟨source, _, hread⟩ := exists_readTag_of_mem hothers hmem
    exact ⟨source, hread⟩

theorem canonical_of_readTag {source : Text} {tag : LocaleTag} (h : readTag source = .ok tag) :
    tag.Canonical := by
  unfold readTag at h
  split at h
  · cases h
    rename_i hparse
    exact LocaleTag.canonical_of_parse hparse
  · cases h

/-- The tracked locales of every bundle that is built are canonical. -/
theorem canonical_of_build {d : BundleDefinition} {b : Bundle} (h : d.build = .ok b) :
    ∀ tag ∈ b.locales, tag.Canonical := by
  intro tag htag
  obtain ⟨_, hread⟩ := exists_readTag_of_build h htag
  exact canonical_of_readTag hread

/-- A bundle can be built exactly when every check of the builder is passed. -/
theorem exists_build_iff {d : BundleDefinition} :
    (∃ b, d.build = .ok b) ↔
      isBaseName (trim d.name) = true ∧ d.roots ≠ [] ∧
        ∃ mainTag, d.mainLocale = some mainTag ∧
          ∀ tag ∈ mainTag :: d.locales, ∃ locale, readTag tag = .ok locale := by
  simp only [build_eq_ok_iff, List.forall_mem_cons, ← exists_readTags_iff]
  constructor
  · rintro ⟨_, hname, hroots, mainTag, mainLocale, others, hmain, htag, htags, _⟩
    exact ⟨hname, hroots, mainTag, hmain, ⟨mainLocale, htag⟩, others, htags⟩
  · rintro ⟨hname, hroots, mainTag, hmain, ⟨mainLocale, htag⟩, others, htags⟩
    exact ⟨_, hname, hroots, mainTag, mainLocale, others, hmain, htag, htags, rfl⟩

theorem build_of_empty_part {d : BundleDefinition} (h : [] ∈ (trim d.name).splitOn '.') :
    d.build = .error (.invalidName d.name) := by
  have hname : isBaseName (trim d.name) = false := by
    rw [← Bool.not_eq_true, isBaseName_iff]
    exact not_not_intro h
  rw [build_eq, hname]
  rfl

end BundleDefinition

/-! ## Section 2: Settings that keep their rules -/

namespace BundleSettings

/-- **Rules and builder agree up to the parts of the base name.** The bundle of some settings can be
built exactly when the settings have no problem and no part of the base name between its dots is
empty; settings without problems whose bundle cannot be built fail on their base name alone. -/
theorem exists_build_iff_of_settings (b : BundleSettings) :
    ((∃ bundle, b.definition.build = .ok bundle) ↔
        b.problems = [] ∧ [] ∉ (trim b.name).splitOn '.') ∧
      (b.problems = [] → ∀ e, b.definition.build = .error e ↔
        e = .invalidName b.name ∧ [] ∈ (trim b.name).splitOn '.') := by
  have hbuilt : (∃ bundle, b.definition.build = .ok bundle) ↔
      b.problems = [] ∧ [] ∉ (trim b.name).splitOn '.' := by
    rw [BundleDefinition.exists_build_iff, BundleDefinition.isBaseName_iff,
      bundle_problems_eq_nil_iff]
    simp only [definition, Option.some.injEq, exists_eq_left']
    constructor
    · rintro ⟨hparts, hroots, htags⟩
      have hname : trim b.name ≠ [] := fun hnil => hparts (by simp [hnil])
      exact ⟨⟨hname, hroots, htags⟩, hparts⟩
    · rintro ⟨⟨_, hroots, htags⟩, hparts⟩
      exact ⟨hparts, hroots, htags⟩
  refine ⟨hbuilt, fun hproblems e => ⟨fun herror => ?_, ?_⟩⟩
  · -- without an empty part the bundle could be built
    have hparts : [] ∈ (trim b.name).splitOn '.' := by
      by_contra hparts
      obtain ⟨bundle, hbundle⟩ := hbuilt.mpr ⟨hproblems, hparts⟩
      rw [hbundle] at herror
      cases herror
    have hname := BundleDefinition.build_of_empty_part (d := b.definition) hparts
    exact ⟨Except.error.inj (herror.symm.trans hname), hparts⟩
  · rintro ⟨rfl, hparts⟩
    exact BundleDefinition.build_of_empty_part hparts

/-- Settings with two dots in a row in the base name have no problem, and yet no bundle. -/
theorem dotted_name_not_built :
    ({ standard with name := "a..b".toList } : BundleSettings).problems = [] ∧
      ¬∃ bundle, ({ standard with name := "a..b".toList } : BundleSettings).definition.build =
        .ok bundle := by
  refine ⟨by rfl, ?_⟩
  rintro ⟨bundle, hbundle⟩
  cases hbundle.symm.trans (BundleDefinition.build_of_empty_part (by decide))

end BundleSettings

end MessageCatalog
