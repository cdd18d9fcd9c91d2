import MessageCatalog.Proofs.BundleDefinitions
import MessageCatalog.Proofs.PathPlaces

/-!
# Resource files of tracked locales

The file of a locale is named after its language, region and variants. Tracked locales that differ
in one of them have different files; locales that differ in their scripts only share a file, and all
locales of the undetermined language share the base file.

## Main statements

* `Canonical.resourceSuffix_eq_iff` : which tags have the same suffix
* `Path.exists_names_append` : the names of a path that goes on after its last slash
* `resourceFile_eq_iff_of_build` : which tracked locales share a file
-/

namespace MessageCatalog

open Text

/-! ## Section 1: Suffixes -/

namespace LocaleTag

/-- Whether two tags name one file: both are of the undetermined language, or they agree in
language, region and variants. -/
def SharesFile (a c : LocaleTag) : Prop :=
  (a.language = undetermined ∧ c.language = undetermined) ∨
    (a.language = c.language ∧ a.region = c.region ∧ a.variants = c.variants)

instance (a c : LocaleTag) : Decidable (SharesFile a c) :=
  inferInstanceAs (Decidable (_ ∨ _))

/-- The subtags that a file is named after. -/
def fileParts (tag : LocaleTag) : List Text := tag.language :: (tag.region.toList ++ tag.variants)

theorem fileParts_subset (tag : LocaleTag) : tag.fileParts ⊆ tag.parts := by
  intro part hpart
  simp only [fileParts, parts, List.mem_cons, List.mem_append] at hpart ⊢
  tauto

theorem resourceSuffix_of_undetermined {tag : LocaleTag} (h : tag.language = undetermined) :
    tag.resourceSuffix = [] := if_pos h

theorem resourceSuffix_of_language {tag : LocaleTag} (h : tag.language ≠ undetermined) :
    tag.resourceSuffix = join ['_'] tag.fileParts := if_neg h

namespace Canonical

variable {a c : LocaleTag}

theorem plain_fileParts (ha : a.Canonical) :
    ∀ part ∈ a.fileParts, ∀ c ∈ part, isSeparator c = false := fun part hpart =>
  ha.plain_parts part (a.fileParts_subset hpart)

/-- A suffix tells the subtags that it is made from. -/
theorem fileParts_eq_of_join (ha : a.Canonical) (hc : c.Canonical)
    (h : join ['_'] a.fileParts = join ['_'] c.fileParts) : a.fileParts = c.fileParts := by
  have hne : ∀ tag : LocaleTag, tag.fileParts ≠ [] := fun _ => List.cons_ne_nil _ _
  have hsubtags := congrArg subtags h
  rwa [subtags_join '_' (by decide) (hne a) ha.plain_fileParts,
    subtags_join '_' (by decide) (hne c) hc.plain_fileParts] at hsubtags

/-- Regions are shorter than variants. -/
theorem region_not_mem_variants (ha : a.Canonical) (hc : c.Canonical) {r : Text}
    (hr : a.region = some r) : r ∉ c.variants := by
  intro hmem
  have hshort := (ha.region_alnum hr).1
  have hlong := hc.variant_length hmem
  omega

/-- A region and variants that stand in a row can be told apart. -/
theorem region_variants_unique (ha : a.Canonical) (hc : c.Canonical)
    (h : a.region.toList ++ a.variants = c.region.toList ++ c.variants) :
    a.region = c.region ∧ a.variants = c.variants := by
  -- where only one of them has a region, it would stand for the first variant of the other
  cases hra : a.region with
  | none =>
    cases hrc : c.region with
    | none => exact ⟨rfl, by simpa [hra, hrc] using h⟩
    | some r => exact absurd (by simp_all) (hc.region_not_mem_variants ha hrc)
  | some r =>
    cases hrc : c.region with
    | none =>
      have hvariants : r :: a.variants = c.variants := by simpa [hra, hrc] using h
      exact absurd (hvariants ▸ List.mem_cons_self) (ha.region_not_mem_variants hc hra)
    | some r' =>
      obtain ⟨rfl, hvariants⟩ : r = r' ∧ a.variants = c.variants := by simpa [hra, hrc] using h
      exact ⟨rfl, hvariants⟩

theorem join_fileParts_ne_nil (ha : a.Canonical) : join ['_'] a.fileParts ≠ [] := by
  obtain ⟨d, ds, hlanguage⟩ := List.exists_cons_of_ne_nil ha.language_letters.1
  rw [fileParts, hlanguage]
  cases a.region.toList ++ a.variants <;> simp [join]

/-- **Tags have the same suffix when they name one file**, and only then. -/
theorem resourceSuffix_eq_iff (ha : a.Canonical) (hc : c.Canonical) :
    a.resourceSuffix = c.resourceSuffix ↔ a.SharesFile c := by
  unfold SharesFile
  -- the suffix of an undetermined language is empty, and that of another one is not
  by_cases hua : a.language = undetermined <;> by_cases huc : c.language = undetermined
  · simp [resourceSuffix_of_undetermined, hua, huc]
  · rw [resourceSuffix_of_undetermined hua, resourceSuffix_of_language huc, hua]
    simp [huc, Ne.symm huc, hc.join_fileParts_ne_nil.symm]
  · rw [resourceSuffix_of_language hua, resourceSuffix_of_undetermined huc, huc]
    simp [hua, ha.join_fileParts_ne_nil]
  · rw [resourceSuffix_of_language hua, resourceSuffix_of_language huc,
      or_iff_right fun hboth => hua hboth.1]
    constructor
    · intro h
      obtain ⟨hlanguage, hrest⟩ := List.cons.inj (ha.fileParts_eq_of_join hc h)
      exact ⟨hlanguage, ha.region_variants_unique hc hrest⟩
    · rintro ⟨hlanguage, hregion, hvariants⟩
      rw [fileParts, fileParts, hlanguage, hregion, hvariants]

end Canonical

end LocaleTag

/-! ## Section 2: Paths that go on -/

namespace Path

/-- What follows the beginning of a part follows the joined path. -/
theorem join_append {part : Path} (h : part ≠ []) (base : Path) (tail : Text) :
    join base (part ++ tail) = join base part ++ tail := by
  unfold join
  rw [isAbsolute_append h]
  split
  · rfl
  · split <;> simp

theorem isName_append {tail : Text} (h : 1 < tail.length) (last : Text) :
    isName (last ++ tail) = true := by
  have hlong : 1 < (last ++ tail).length := by
    rw [List.length_append]
    omega
  rw [isName, Bool.and_eq_true, bne_iff_ne, bne_iff_ne]
  constructor <;> intro heq <;> simp [heq] at hlong

/-- **The last name of a path goes on with what follows**, unless there is a slash in it. -/
theorem exists_names_append (front : Text) :
    ∃ init last, ∀ tail, '/' ∉ tail → 1 < tail.length →
      names (front ++ tail) = init ++ [last ++ tail] := by
  have hplain : ∀ {last tail : Text}, (∀ c ∈ last, (c == '/') = false) → '/' ∉ tail →
      (last ++ tail).splitOn '/' = [last ++ tail] := by
    intro last tail hlast htail
    refine List.splitOn_eq_singleton fun hmem => ?_
    rcases List.mem_append.mp hmem with hmem | hmem
    · exact absurd (hlast '/' hmem) (by decide)
    · exact htail hmem
  rcases exists_last_part (· == '/') front with hnone | ⟨before, sep, last, rfl, hsep, hlast⟩
  · refine ⟨[], front, fun tail htail hlength => ?_⟩
    rw [names, hplain hnone htail, List.filter_cons_of_pos (isName_append hlength front)]
    rfl
  · obtain rfl : sep = '/' := beq_iff_eq.mp hsep
    refine ⟨(before.splitOn '/').filter isName, last, fun tail htail hlength => ?_⟩
    rw [names, List.append_assoc, List.cons_append, List.splitOn_append_cons_self,
      hplain hlast htail, List.filter_append,
      List.filter_cons_of_pos (isName_append hlength last)]
    rfl

end Path

/-! ## Section 3: File names -/

namespace Bundle

/-- What follows the last part of the base name in a file name. -/
def fileTail (tag : LocaleTag) : Text :=
  (if tag.resourceSuffix = [] then [] else '_' :: tag.resourceSuffix) ++ ".properties".toList

theorem fileName_eq (stem : Text) (tag : LocaleTag) : fileName stem tag = stem ++ fileTail tag := by
  simp only [fileName, fileTail]
  by_cases hsuffix : tag.resourceSuffix = []
  · rw [if_pos hsuffix, if_pos hsuffix, List.nil_append]
  · rw [if_neg hsuffix, if_neg hsuffix, List.append_assoc]

theorem fileTail_eq_iff {a c : LocaleTag} :
    fileTail a = fileTail c ↔ a.resourceSuffix = c.resourceSuffix := by
  unfold fileTail
  rw [List.append_cancel_right_eq]
  by_cases ha : a.resourceSuffix = [] <;> by_cases hc : c.resourceSuffix = []
  · rw [if_pos ha, if_pos hc, ha, hc]
  · rw [if_pos ha, if_neg hc, ha]
    exact iff_of_false (List.cons_ne_nil _ _).symm (Ne.symm hc)
  · rw [if_neg ha, if_pos hc, hc]
    exact iff_of_false (List.cons_ne_nil _ _) ha
  · rw [if_neg ha, if_neg hc, List.cons_inj_right]

theorem length_fileTail (tag : LocaleTag) : 1 < (fileTail tag).length := by
  rw [fileTail, List.length_append]
  exact Nat.lt_of_lt_of_le (by decide) (Nat.le_add_left _ _)

/-- What stands in neither the separator nor a part does not stand in the joined text. -/
theorem not_mem_join {sep : Text} {parts : List Text} {c : Char} (hsep : c ∉ sep)
    (hparts : ∀ part ∈ parts, c ∉ part) : c ∉ join sep parts := by
  rw [join]
  induction parts with
  | nil => simp
  | cons part parts ih =>
    rw [List.forall_mem_cons] at hparts
    cases parts with
    | nil => exact List.intercalate_singleton ▸ hparts.1
    | cons next parts =>
      rw [List.intercalate_cons_cons, List.mem_append, List.mem_append]
      rintro ((hmem | hmem) | hmem)
      · exact hparts.1 hmem
      · exact hsep hmem
      · exact ih hparts.2 hmem

/-- There is a slash in a file name only when there is one in a variant. -/
theorem slash_not_mem_fileTail {tag : LocaleTag} (h : tag.Canonical)
    (hvariants : ∀ v ∈ tag.variants, '/' ∉ v) : '/' ∉ fileTail tag := by
  have hparts : ∀ part ∈ tag.fileParts, '/' ∉ part := by
    intro part hpart hmem
    rcases (h.alnum_or_variant (tag.fileParts_subset hpart)).2 with halnum | hvariant
    · exact absurd (List.all_eq_true.mp halnum '/' hmem) (by decide)
    · exact hvariants part hvariant hmem
  have hjoin : '/' ∉ tag.resourceSuffix := by
    by_cases hund : tag.language = LocaleTag.undetermined
    · simp [LocaleTag.resourceSuffix_of_undetermined hund]
    · rw [LocaleTag.resourceSuffix_of_language hund]
      exact not_mem_join (by decide) hparts
  unfold fileTail
  split
  · decide
  · rw [List.mem_append, List.mem_cons]
    rintro ((heq | hmem) | hmem)
    · exact absurd heq (by decide)
    · exact hjoin hmem
    · exact absurd hmem (by decide)

section

variable {b : Bundle} {a c : LocaleTag}

/-- The file of a locale, with the part that tells the locale at its end. -/
theorem resourceFile_eq (hname : [] ∉ b.name.splitOn '.') :
    ∃ front, ∀ tag, b.resourceFile tag = front ++ fileTail tag := by
  -- how a part is joined depends on how it begins, so something has to stand before the tail
  have hstem : (b.name.splitOn '.').getLastD [] ≠ [] := by
    obtain ⟨init, last, hparts⟩ :=
      (List.eq_nil_or_concat' (b.name.splitOn '.')).resolve_left (List.splitOn_ne_nil _ _)
    rw [hparts] at hname ⊢
    rw [List.getLastD_concat]
    rintro rfl
    simp at hname
  refine ⟨Path.join ((b.name.splitOn '.').dropLast.foldl Path.join [])
    ((b.name.splitOn '.').getLastD []), fun tag => ?_⟩
  rw [resourceFile, fileName_eq]
  exact Path.join_append hstem _ _

/-- **Locales have one file when their tags name one file**, and only then. -/
theorem resourceFile_eq_iff (hname : [] ∉ b.name.splitOn '.') (ha : a.Canonical) (hc : c.Canonical) :
    b.resourceFile a = b.resourceFile c ↔ a.SharesFile c := by
  obtain ⟨front, hfront⟩ := resourceFile_eq hname
  rw [hfront, hfront, List.append_right_inj, fileTail_eq_iff, ha.resourceSuffix_eq_iff hc]

/-- Without slashes in their variants, locales have one file also when the names in its path are
all that counts. -/
theorem names_resourceFile_eq_iff (hname : [] ∉ b.name.splitOn '.') (ha : a.Canonical)
    (hc : c.Canonical) (hva : ∀ v ∈ a.variants, '/' ∉ v) (hvc : ∀ v ∈ c.variants, '/' ∉ v) :
    Path.names (b.resourceFile a) = Path.names (b.resourceFile c) ↔ a.SharesFile c := by
  obtain ⟨front, hfront⟩ := resourceFile_eq hname
  obtain ⟨init, last, hnames⟩ := Path.exists_names_append front
  rw [hfront, hfront, hnames _ (slash_not_mem_fileTail ha hva) (length_fileTail a),
    hnames _ (slash_not_mem_fileTail hc hvc) (length_fileTail c), List.append_right_inj,
    List.singleton_inj, List.append_right_inj, fileTail_eq_iff, ha.resourceSuffix_eq_iff hc]

end

/-! ## Section 4: Bundles that are built -/

/-- No part of the base name of a bundle that is built is empty. -/
theorem nil_not_mem_of_build {d : BundleDefinition} {b : Bundle} (h : d.build = .ok b) :
    [] ∉ b.name.splitOn '.' := by
  obtain ⟨hname, -, _, _, _, -, -, -, rfl⟩ := BundleDefinition.build_eq_ok_iff.mp h
  exact BundleDefinition.isBaseName_iff.mp hname

/-- **Tracked locales share a resource file when both are of the undetermined language, or when they
differ in their scripts only.** All others have different files: different as texts, and, unless
there is a slash in a variant, different also in the names that the files are found by. -/
theorem resourceFile_eq_iff_of_build {d : BundleDefinition} {b : Bundle} (h : d.build = .ok b)
    {a c : LocaleTag} (ha : a ∈ b.locales) (hc : c ∈ b.locales) :
    (b.resourceFile a = b.resourceFile c ↔ a.SharesFile c) ∧
      ((∀ v ∈ a.variants ++ c.variants, '/' ∉ v) →
        (Path.names (b.resourceFile a) = Path.names (b.resourceFile c) ↔ a.SharesFile c)) := by
  have hname := nil_not_mem_of_build h
  have hca := BundleDefinition.canonical_of_build h a ha
  have hcc := BundleDefinition.canonical_of_build h c hc
  refine ⟨resourceFile_eq_iff hname hca hcc, fun hslash => ?_⟩
  rw [List.forall_mem_append] at hslash
  exact names_resourceFile_eq_iff hname hca hcc hslash.1 hslash.2

/-- A locale of a language and a region, and one that has a script and a variant besides. -/
theorem resourceFile_eq_iff_of_build_variant :
    let enGB : LocaleTag := ⟨"en".toList, none, some "GB".toList, []⟩
    let enLatnGB : LocaleTag := ⟨"en".toList, some "Latn".toList, some "GB".toList, ["posix".toList]⟩
    ∃ b, (⟨"i18n.messages".toList, [], some "en_gb".toList, ["en-latn-gb-POSIX".toList],
        ["res".toList], .lastRootWins⟩ : BundleDefinition).build = .ok b ∧
      enGB ∈ b.locales ∧ enLatnGB ∈ b.locales ∧ b.resourceFile enGB ≠ b.resourceFile enLatnGB ∧
      Path.names (b.resourceFile enGB) ≠ Path.names (b.resourceFile enLatnGB) := by
  intro enGB enLatnGB
  let d : BundleDefinition := ⟨"i18n.messages".toList, [], some "en_gb".toList,
    ["en-latn-gb-POSIX".toList], ["res".toList], .lastRootWins⟩
  have hbuild : d.build = .ok (d.built enGB [enLatnGB]) :=
    BundleDefinition.build_eq_ok_iff.mpr
      ⟨by decide, by decide, "en_gb".toList, enGB, [enLatnGB], rfl, by decide +kernel,
        by decide +kernel, rfl⟩
  have hmain : enGB ∈ (d.built enGB [enLatnGB]).locales := by decide +kernel
  have hother : enLatnGB ∈ (d.built enGB [enLatnGB]).locales := by decide +kernel
  obtain ⟨htexts, hnames⟩ := resourceFile_eq_iff_of_build hbuild hmain hother
  have hdiffer : ¬enGB.SharesFile enLatnGB := by decide
  exact ⟨_, hbuild, hmain, hother, htexts.not.mpr hdiffer, (hnames (by decide)).not.mpr hdiffer⟩

/-- Different tracked locales that share a file: two of one language in different scripts, and two of
the undetermined language. -/
theorem scripts_share_file :
    let cyrillic : LocaleTag := ⟨"sr".toList, some "Cyrl".toList, none, []⟩
    let latin : LocaleTag := ⟨"sr".toList, some "Latn".toList, none, []⟩
    let und : LocaleTag := ⟨"und".toList, none, none, []⟩
    let undUS : LocaleTag := ⟨"und".toList, none, some "US".toList, []⟩
    ∃ b, (⟨"messages".toList, [], some "sr-Latn".toList,
        ["sr-Cyrl".toList, "und".toList, "und-US".toList], ["res".toList],
        .lastRootWins⟩ : BundleDefinition).build = .ok b ∧
      b.locales = [cyrillic, latin, und, undUS] ∧ cyrillic.same latin = false ∧
      b.resourceFile cyrillic = b.resourceFile latin ∧ und.same undUS = false ∧
      b.resourceFile und = b.resourceFile undUS := by
  intro cyrillic latin und undUS
  refine ⟨_, BundleDefinition.build_eq_ok_iff.mpr ⟨by decide, by decide, "sr-Latn".toList, latin,
    [cyrillic, und, undUS], rfl, by decide +kernel, by decide +kernel, rfl⟩, ?_⟩
  decide +kernel

end Bundle

end MessageCatalog
