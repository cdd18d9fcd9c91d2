import MessageCatalog.Proofs.SubtagForms
import MessageCatalog.Proofs.Tables
import MessageCatalog.Proofs.TemplateScanner

/-!
# Canonical texts of locale tags

The subtags of a tag that was read are in canonical case, and its variants are sorted. Reading the
canonical text gives the same tag again, with two exceptions that the sorting brings about: a
variant of four letters that has come to stand directly after the language is read as a script, and
blanks of a variant that has come to stand at the end are dropped.

## Main statements

* `readSubtags_append` : subtags are read by their places
* `canonical_of_parse` : what is known of a tag that was read
* `Canonical.parse_text`, `Canonical.parse_text_of_opensLikeScript`,
  `Canonical.parse_text_of_closesInBlank` : what the canonical text is read as, in all cases
* `parse_text_of_parse` : when it is read as the same tag
-/

namespace MessageCatalog.LocaleTag

open Text

/-! ## Section 1: Subtags in their places -/

/-- Read the subtags of a tag. -/
def readSubtags : List Text → Except LocaleTagError LocaleTag
  | [] => .error .invalidLanguage
  | first :: rest =>
    match language? first with
    | none => .error .invalidLanguage
    | some language =>
      let (script, rest) := takeSubtag script? rest
      let (region, rest) := takeSubtag region? rest
      match rest.mapM variant? with
      | none => .error .invalidSubtag
      | some variants => .ok ⟨language, script, region, Ordered.insertAll [] variants⟩

theorem parse_eq (source : Text) :
    parse source =
      if trim source = [] then .error .empty else readSubtags (subtags (trim source)) := by
  unfold parse readSubtags
  rfl

section

variable {form : Text → Option Text} {parts rest : List Text}

/-- What is taken stands in front and has the wanted form. -/
theorem exists_of_takeSubtag {found : Option Text} (h : takeSubtag form parts = (found, rest)) :
    ∃ raw : Option Text, parts = raw.toList ++ rest ∧ raw.map form = found.map some := by
  cases parts with
  | nil =>
    obtain ⟨rfl, rfl⟩ := Prod.mk.inj h
    exact ⟨none, rfl, rfl⟩
  | cons s parts =>
    cases hform : form s with
    | some t =>
      simp only [takeSubtag, hform] at h
      obtain ⟨rfl, rfl⟩ := Prod.mk.inj h
      exact ⟨some s, rfl, congrArg some hform⟩
    | none =>
      simp only [takeSubtag, hform] at h
      obtain ⟨rfl, rfl⟩ := Prod.mk.inj h
      exact ⟨none, rfl, rfl⟩

/-- A part of the wanted form is taken; without one, what follows must not have that form. -/
theorem takeSubtag_append {raw found : Option Text} (hform : raw.map form = found.map some)
    (hnext : raw = none → ∀ s ∈ rest.head?, form s = none) :
    takeSubtag form (raw.toList ++ rest) = (found, rest) := by
  cases raw with
  | some s =>
    obtain ⟨t, rfl, hs⟩ : ∃ t, found = some t ∧ form s = some t := by
      cases found with
      | none => cases hform
      | some t => exact ⟨t, rfl, Option.some.inj hform⟩
    simp only [Option.toList_some, List.singleton_append, takeSubtag, hs]
  | none =>
    obtain rfl : found = none := by
      cases found with
      | none => rfl
      | some t => cases hform
    cases rest with
    | nil => rfl
    | cons s rest =>
      simp only [Option.toList_none, List.nil_append, takeSubtag, hnext rfl s rfl]

/-- Variants are read one by one. -/
theorem mapM_eq_some_iff {raws variants : List Text} :
    raws.mapM variant? = some variants ↔ raws.map variant? = variants.map some := by
  induction raws generalizing variants with
  | nil => cases variants <;> simp
  | cons raw raws ih =>
    simp only [List.mapM_cons, Option.bind_eq_bind, Option.bind_eq_some_iff, ih, List.map_cons]
    constructor
    · rintro ⟨variant, hraw, variants, hraws, heq⟩
      obtain rfl := Option.some.inj heq
      rw [hraw, hraws, List.map_cons]
    · intro h
      obtain ⟨variant, variants, rfl, hraw, hraws⟩ := List.map_eq_cons_iff.mp h.symm
      exact ⟨variant, hraw.symm, variants, hraws.symm, rfl⟩

theorem mapM_eq_none {raws : List Text} {raw : Text} (hmem : raw ∈ raws)
    (h : variant? raw = none) : raws.mapM variant? = none := by
  by_contra hsome
  obtain ⟨variants, hvariants⟩ := Option.ne_none_iff_exists'.mp hsome
  have hread : variant? raw ∈ variants.map some :=
    mapM_eq_some_iff.mp hvariants ▸ List.mem_map_of_mem hmem
  simp [h] at hread

/-- **Subtags are read by their places**: a script and a region where there are such, and then the
variants. -/
theorem readSubtags_append {first language : Text} {rawScript script rawRegion region : Option Text}
    {raws : List Text} (hlanguage : language? first = some language)
    (hscript : rawScript.map script? = script.map some)
    (hregion : rawRegion.map region? = region.map some)
    (hnoScript : rawScript = none → ∀ s ∈ (rawRegion.toList ++ raws).head?, script? s = none)
    (hnoRegion : rawRegion = none → ∀ s ∈ raws.head?, region? s = none) :
    readSubtags (first :: (rawScript.toList ++ (rawRegion.toList ++ raws))) =
      match raws.mapM variant? with
      | none => .error .invalidSubtag
      | some variants => .ok ⟨language, script, region, Ordered.insertAll [] variants⟩ := by
  unfold readSubtags
  simp only [hlanguage, takeSubtag_append hscript hnoScript, takeSubtag_append hregion hnoRegion]

/-- The subtags that a tag is read from. -/
theorem exists_of_readSubtags {tag : LocaleTag} (h : readSubtags parts = .ok tag) :
    ∃ first rawScript rawRegion raws variants,
      parts = first :: (Option.toList rawScript ++ (Option.toList rawRegion ++ raws)) ∧
        language? first = some tag.language ∧ rawScript.map script? = tag.script.map some ∧
        rawRegion.map region? = tag.region.map some ∧ raws.mapM variant? = some variants ∧
        tag.variants = Ordered.insertAll [] variants := by
  cases parts with
  | nil => cases h
  | cons first parts =>
    unfold readSubtags at h
    cases hlanguage : language? first with
    | none => simp [hlanguage] at h
    | some language =>
      rcases hscript : takeSubtag script? parts with ⟨script, rest⟩
      rcases hregion : takeSubtag region? rest with ⟨region, raws⟩
      cases hvariants : raws.mapM variant? with
      | none => simp [hlanguage, hscript, hregion, hvariants] at h
      | some variants =>
        simp only [hlanguage, hscript, hregion, hvariants, Except.ok.injEq] at h
        subst h
        obtain ⟨rawScript, rfl, hrawScript⟩ := exists_of_takeSubtag hscript
        obtain ⟨rawRegion, rfl, hrawRegion⟩ := exists_of_takeSubtag hregion
        exact ⟨first, rawScript, rawRegion, raws, variants, rfl, hlanguage, hrawScript, hrawRegion,
          hvariants, rfl⟩

end

/-! ## Section 2: Dividing a text into subtags -/

theorem isSeparator_eq_false_of_mem_subtags {t part : Text} (h : part ∈ subtags t) :
    ∀ c ∈ part, isSeparator c = false := by
  rw [subtags_eq] at h
  induction t generalizing part with
  | nil =>
    obtain rfl : part = [] := by simpa using h
    simp
  | cons c t ih =>
    rw [List.splitOnP_cons_eq_if_modifyHead] at h
    split at h
    · rcases List.mem_cons.mp h with rfl | h
      · simp
      · exact ih h
    · rename_i hc
      -- the first part is one character longer than that of the rest
      obtain ⟨head, tail, hsplit⟩ := List.exists_cons_of_ne_nil (List.splitOnP_ne_nil isSeparator t)
      rw [hsplit, List.modifyHead_cons] at h
      rw [hsplit] at ih
      rcases List.mem_cons.mp h with rfl | h
      · rw [List.forall_mem_cons]
        exact ⟨by simpa using hc, ih List.mem_cons_self⟩
      · exact ih (List.mem_cons_of_mem _ h)

/-- The last subtag stands at the end of the text. -/
theorem exists_front_of_subtags {t last : Text} {init : List Text}
    (h : subtags t = init ++ [last]) : ∃ front, t = front ++ last := by
  rw [subtags_eq] at h
  rcases exists_last_part isSeparator t with hnone | ⟨before, sep, after, rfl, hsep, hafter⟩
  · rw [List.splitOnP_eq_singleton hnone, ← List.nil_append [t]] at h
    obtain ⟨-, hlast⟩ := List.append_inj' h rfl
    exact ⟨[], List.singleton_inj.mp hlast⟩
  · rw [List.splitOnP_append_cons _ _ hsep, List.splitOnP_eq_singleton hafter] at h
    obtain ⟨-, hlast⟩ := List.append_inj' h rfl
    exact ⟨before ++ [sep], by simp [List.singleton_inj.mp hlast]⟩

/-- The last subtag of a trimmed text ends in no blank. -/
theorem endsInBlank_last_subtag {source last : Text} {init : List Text}
    (h : subtags (trim source) = init ++ [last]) (hne : last ≠ []) : endsInBlank last = false := by
  obtain ⟨front, hfront⟩ := exists_front_of_subtags h
  have hends := endsInBlank_trim source
  rwa [hfront, endsInBlank, List.getLast?_append_of_ne_nil _ hne] at hends

/-- Parts without separators are the subtags of what they are joined to. -/
theorem subtags_join (sep : Char) (hsep : isSeparator sep = true) {parts : List Text}
    (hne : parts ≠ []) (h : ∀ part ∈ parts, ∀ c ∈ part, isSeparator c = false) :
    subtags (join [sep] parts) = parts := by
  rw [subtags_eq, join]
  induction parts with
  | nil => exact absurd rfl hne
  | cons part parts ih =>
    rw [List.forall_mem_cons] at h
    cases parts with
    | nil =>
      rw [List.intercalate_singleton]
      exact List.splitOnP_eq_singleton h.1
    | cons next parts =>
      rw [List.intercalate_cons_cons, List.append_assoc, List.singleton_append,
        List.splitOnP_append_cons_of_forall_mem h.1 sep hsep, ih (by simp) h.2]

/-- Joined parts end with the last one. -/
theorem exists_front_of_join (init : List Text) :
    ∃ front, ∀ last, join ['-'] (init ++ [last]) = front ++ last := by
  induction init with
  | nil => exact ⟨[], fun last => List.intercalate_singleton⟩
  | cons part init ih =>
    obtain ⟨front, hfront⟩ := ih
    refine ⟨part ++ (['-'] ++ front), fun last => ?_⟩
    rw [join, List.cons_append, List.intercalate_cons_of_ne_nil (by simp), ← join, hfront]
    simp only [List.append_assoc]

/-! ## Section 3: Canonical tags -/

/-- The subtags of a tag in order. -/
def parts (tag : LocaleTag) : List Text :=
  tag.language :: (tag.script.toList ++ (tag.region.toList ++ tag.variants))

theorem text_eq_join_parts (tag : LocaleTag) : tag.text = join ['-'] tag.parts := by
  rw [text, parts, List.append_assoc]
  rfl

/-- What is known of a tag that was read. -/
structure Canonical (tag : LocaleTag) : Prop where
  language : language? tag.language = some tag.language
  script : tag.script.map script? = tag.script.map some
  region : tag.region.map region? = tag.region.map some
  variants : ∀ v ∈ tag.variants, variant? v = some v
  plain : ∀ v ∈ tag.variants, ∀ c ∈ v, isSeparator c = false
  ascending : Ordered.Ascending tag.variants
  /-- The subtag that stood last ends in no blank. -/
  closed : tag.variants ≠ [] → ∃ v ∈ tag.variants, endsInBlank v = false

/-- A subtag of a form is of that form again, if it keeps it. -/
theorem map_again {form : Text → Option Text} (hform : ∀ s t, form s = some t → form t = some t)
    {raw found : Option Text} (h : raw.map form = found.map some) :
    found.map form = found.map some := by
  cases found with
  | none => rfl
  | some t =>
    obtain ⟨s, -, hs⟩ := Option.map_eq_some_iff.mp h
    exact congrArg some (hform s t hs)

/-- **A tag that was read is canonical.** -/
theorem canonical_of_parse {source : Text} {tag : LocaleTag} (h : parse source = .ok tag) :
    tag.Canonical := by
  rw [parse_eq] at h
  split at h
  · cases h
  obtain ⟨first, rawScript, rawRegion, raws, variants, hparts, hlanguage, hscript, hregion,
    hvariants, htag⟩ := exists_of_readSubtags h
  -- sorting keeps the variants, whatever their order was
  have hmem : ∀ v, v ∈ tag.variants ↔ some v ∈ raws.map variant? := by
    intro v
    rw [htag, Ordered.mem_insertAll_iff, mapM_eq_some_iff.mp hvariants]
    simp
  have hraw : ∀ v ∈ tag.variants, ∃ raw ∈ raws, variant? raw = some v := fun v hv =>
    List.mem_map.mp ((hmem v).mp hv)
  refine ⟨(language?_again hlanguage).1, map_again (fun _ _ hs => (script?_again hs).1) hscript,
    map_again (fun _ _ hs => (region?_again hs).1) hregion, ?_, ?_, ?_, ?_⟩
  · intro v hv
    obtain ⟨raw, -, hraw⟩ := hraw v hv
    exact (variant?_again hraw).1
  · intro v hv
    obtain ⟨raw, hraws, hraw⟩ := hraw v hv
    refine plain_of_variant? hraw (isSeparator_eq_false_of_mem_subtags (t := trim source) ?_)
    simp [hparts, hraws]
  · rw [htag]
    exact Ordered.ascending_insertAll List.Pairwise.nil
  · intro hne
    -- the variant that was read from the end of the trimmed text
    obtain ⟨v, hv⟩ := List.exists_mem_of_ne_nil _ hne
    obtain ⟨raw, hraws, -⟩ := hraw v hv
    obtain ⟨init, last, rfl⟩ :=
      (List.eq_nil_or_concat' raws).resolve_left (List.ne_nil_of_mem hraws)
    have hlast : variant? last ∈ variants.map some := by
      rw [← mapM_eq_some_iff.mp hvariants]
      simp
    obtain ⟨w, -, hw⟩ := List.mem_map.mp hlast
    refine ⟨w, (hmem w).mpr (by simp [hw]), ?_⟩
    have hsubtags : subtags (trim source) =
        (first :: (rawScript.toList ++ (rawRegion.toList ++ init))) ++ [last] := by
      simp [hparts]
    have hlength := length_of_isVariant (variant?_eq_some_iff.mp hw.symm).1
    rw [endsInBlank_of_variant? hw.symm]
    exact endsInBlank_last_subtag hsubtags (List.ne_nil_of_length_pos (by omega))

namespace Canonical

variable {tag : LocaleTag}

theorem language_letters (hc : tag.Canonical) :
    tag.language ≠ [] ∧ tag.language.all isLetter = true :=
  (language?_again hc.language).2

theorem script_letters (hc : tag.Canonical) {s : Text} (hs : tag.script = some s) :
    s.length = 4 ∧ s.all isLetter = true := by
  have hscript := hc.script
  rw [hs] at hscript
  exact (script?_again (Option.some.inj hscript)).2

theorem region_alnum (hc : tag.Canonical) {r : Text} (hr : tag.region = some r) :
    (r.length = 2 ∨ r.length = 3) ∧ r.all isAlnum = true := by
  have hregion := hc.region
  rw [hr] at hregion
  exact (region?_again (Option.some.inj hregion)).2

theorem variant_length (hc : tag.Canonical) {v : Text} (hv : v ∈ tag.variants) : 4 ≤ v.length :=
  (variant?_again (hc.variants v hv)).2

/-- No subtag is empty, and those before the variants consist of letters and digits. -/
theorem alnum_or_variant (hc : tag.Canonical) {part : Text} (h : part ∈ tag.parts) :
    part ≠ [] ∧ (part.all isAlnum = true ∨ part ∈ tag.variants) := by
  simp only [parts, List.mem_cons, List.mem_append, Option.mem_toList] at h
  rcases h with rfl | hscript | hregion | hvariant
  · obtain ⟨hne, hletters⟩ := hc.language_letters
    exact ⟨hne, .inl (all_isAlnum_of_letters hletters)⟩
  · obtain ⟨hlength, hletters⟩ := hc.script_letters hscript
    exact ⟨List.ne_nil_of_length_pos (by omega), .inl (all_isAlnum_of_letters hletters)⟩
  · obtain ⟨hlength, halnum⟩ := hc.region_alnum hregion
    exact ⟨List.ne_nil_of_length_pos (by omega), .inl halnum⟩
  · have hlength := hc.variant_length hvariant
    exact ⟨List.ne_nil_of_length_pos (by omega), .inr hvariant⟩

theorem plain_parts (hc : tag.Canonical) :
    ∀ part ∈ tag.parts, ∀ c ∈ part, isSeparator c = false := by
  intro part hpart c hcmem
  rcases (hc.alnum_or_variant hpart).2 with halnum | hvariant
  · exact (not_separator_of_isAlnum (List.all_eq_true.mp halnum c hcmem)).1
  · exact hc.plain part hvariant c hcmem

/-- Variants are read as themselves. -/
theorem mapM_variants (hc : tag.Canonical) {variants : List Text}
    (h : variants.Sublist tag.variants) : variants.mapM variant? = some variants :=
  mapM_eq_some_iff.mpr (List.map_congr_left fun v hv => hc.variants v (h.mem hv))

/-- The variants stay in their order when they are inserted again. -/
theorem insertAll_variants (hc : tag.Canonical) {variants : List Text}
    (h : variants.Sublist tag.variants) : Ordered.insertAll [] variants = variants := by
  refine Ordered.Ascending.eq_of_mem_iff (Ordered.ascending_insertAll List.Pairwise.nil)
    (hc.ascending.sublist h) fun v => ?_
  rw [Ordered.mem_insertAll_iff]
  simp

end Canonical

/-! ## Section 4: Reading the canonical text -/

/-- Whether a variant stands where a script would: directly after the language, with the form of a
script. -/
def opensLikeScript (tag : LocaleTag) : Bool :=
  tag.script.isNone && tag.region.isNone && tag.variants.head?.any fun v => (script? v).isSome

/-- Whether the last variant ends in a blank. -/
def closesInBlank (tag : LocaleTag) : Bool := tag.variants.getLast?.any endsInBlank

/-- Joined parts are read one by one, the last one without blanks at its end. -/
theorem parse_join {init : List Text} {last : Text}
    (hfirst : ∃ c cs rest, init ++ [last] = (c :: cs) :: rest ∧ isBlank c = false)
    (hplain : ∀ part ∈ init ++ [last], ∀ c ∈ part, isSeparator c = false)
    (hlast : trimRight last ≠ []) :
    parse (join ['-'] (init ++ [last])) = readSubtags (init ++ [trimRight last]) := by
  obtain ⟨front, hfront⟩ := exists_front_of_join init
  have htext : trim (join ['-'] (init ++ [last])) = join ['-'] (init ++ [trimRight last]) := by
    obtain ⟨d, ds, rest, hparts, hd⟩ := hfirst
    rw [hfront, hfront]
    refine trim_append (fun c hc => ?_) hlast
    -- the joined text begins as its first part
    obtain rfl : d = c := by
      rw [← hfront, hparts] at hc
      cases rest <;> simpa [join] using hc
    exact hd
  have hsubset : trimRight last ⊆ last := (List.rdropWhile_prefix isBlank _).subset
  have hplain' : ∀ part ∈ init ++ [trimRight last], ∀ c ∈ part, isSeparator c = false := by
    intro part hpart c hc
    rw [List.mem_append, List.mem_singleton] at hpart
    rcases hpart with hpart | rfl
    · exact hplain part (List.mem_append_left [last] hpart) c hc
    · exact hplain last (by simp) c (hsubset hc)
  have hne : join ['-'] (init ++ [trimRight last]) ≠ [] := by
    rw [hfront]
    simp [hlast]
  rw [parse_eq, htext, if_neg hne, subtags_join '-' (by decide) (by simp) hplain']

namespace Canonical

variable {tag : LocaleTag}

/-- The canonical text begins with a letter. -/
theorem exists_letter (hc : tag.Canonical) :
    ∃ c cs rest, tag.parts = (c :: cs) :: rest ∧ isBlank c = false := by
  obtain ⟨hne, hletters⟩ := hc.language_letters
  obtain ⟨c, cs, hlanguage⟩ := List.exists_cons_of_ne_nil hne
  rw [hlanguage, List.all_cons, Bool.and_eq_true] at hletters
  exact ⟨c, cs, _, by rw [parts, hlanguage],
    (not_separator_of_isAlnum (isAlnum_of_isLetter hletters.1)).2⟩

/-- The canonical text ends in a blank when the last variant does. -/
theorem endsInBlank_last (hc : tag.Canonical) {init : List Text} {last : Text}
    (h : tag.parts = init ++ [last]) : endsInBlank last = tag.closesInBlank := by
  have hlast : tag.parts.getLast? = some last := by simp [h]
  by_cases hvariants : tag.variants = []
  · -- all parts consist of letters and digits
    have halnum := (hc.alnum_or_variant (List.mem_of_getLast? hlast)).2
    rw [hvariants] at halnum
    rw [closesInBlank, hvariants, endsInBlank_of_isAlnum (halnum.resolve_right List.not_mem_nil)]
    rfl
  · have hends : tag.parts.getLast? = tag.variants.getLast? := by
      rw [parts, List.getLast?_cons_of_ne_nil (by simp [hvariants]),
        List.getLast?_append_of_ne_nil _ (by simp [hvariants]),
        List.getLast?_append_of_ne_nil _ hvariants]
    rw [closesInBlank, ← hends, hlast]
    rfl

/-- Without a blank at the end the canonical text is read by its subtags. -/
theorem parse_text_eq (hc : tag.Canonical) (h : tag.closesInBlank = false) :
    parse tag.text = readSubtags tag.parts := by
  obtain ⟨c, cs, rest, hparts, hblank⟩ := hc.exists_letter
  obtain ⟨init, last, hlast⟩ :=
    (List.eq_nil_or_concat' tag.parts).resolve_left (by simp [hparts])
  have htrim : trimRight last = last :=
    trimRight_of_not_endsInBlank ((hc.endsInBlank_last hlast).trans h)
  have hne : last ≠ [] := (hc.alnum_or_variant (by simp [hlast])).1
  rw [text_eq_join_parts, hlast, parse_join ⟨c, cs, rest, by rw [← hlast, hparts], hblank⟩
    (hlast ▸ hc.plain_parts) (htrim.symm ▸ hne), htrim]

/-- Where there is no script, nothing that follows the language is read as one, unless the first
variant has that form. -/
theorem script?_next (hc : tag.Canonical) (h : tag.opensLikeScript = false)
    (hscript : tag.script = none) :
    ∀ s ∈ (tag.region.toList ++ tag.variants).head?, script? s = none := by
  intro s hs
  cases hregion : tag.region with
  | some r =>
    have hlength := (hc.region_alnum hregion).1
    obtain rfl : r = s := by simpa [hregion] using hs
    exact script?_eq_none (by omega)
  | none =>
    rw [hregion, Option.toList_none, List.nil_append] at hs
    rw [opensLikeScript, hscript, hregion, hs] at h
    simpa using h

/-- Where there is no region, no variant is read as one. -/
theorem region?_next (hc : tag.Canonical) {variants : List Text}
    (h : variants.Sublist tag.variants) : ∀ s ∈ variants.head?, region? s = none := fun _ hs =>
  region?_eq_none (hc.variant_length (h.mem (List.mem_of_head? hs)))

/-- **The canonical text of most tags is read as the same tag.** -/
theorem parse_text (hc : tag.Canonical) (hopen : tag.opensLikeScript = false)
    (hclose : tag.closesInBlank = false) : parse tag.text = .ok tag := by
  rw [hc.parse_text_eq hclose, parts,
    readSubtags_append hc.language hc.script hc.region (hc.script?_next hopen)
      fun _ => hc.region?_next (List.Sublist.refl _),
    hc.mapM_variants (List.Sublist.refl _)]
  simp only [hc.insertAll_variants (List.Sublist.refl _)]

/-- A last variant that ends in a blank has four characters, the first of which is a digit, and it
is not the only variant. -/
theorem exists_of_closesInBlank (hc : tag.Canonical) (hclose : tag.closesInBlank = true) :
    ∃ v init c cs, tag.variants = v :: (init ++ [c :: cs]) ∧ c.isDigit = true ∧
      (c :: cs).length = 4 ∧ endsInBlank (c :: cs) = true := by
  obtain ⟨last, hlast, hends⟩ := (Option.any_eq_true _ _).mp hclose
  have hmem := List.mem_of_getLast? hlast
  obtain ⟨hlength, c, cs, rfl, hdigit⟩ := of_endsInBlank (hc.variants last hmem) hends
  obtain ⟨init, hvariants⟩ := List.getLast?_eq_some_iff.mp hlast
  cases init with
  | nil =>
    obtain ⟨v, hv, hnot⟩ := hc.closed (List.ne_nil_of_mem hmem)
    obtain rfl : v = c :: cs := by simpa [hvariants] using hv
    exact absurd (hnot.symm.trans hends) Bool.false_ne_true
  | cons v init => exact ⟨v, init, c, cs, hvariants, hdigit, hlength, hends⟩

/-- A tag whose first variant has the form of a script has no variant that ends in a blank: a
variant of letters stands after all those that begin with a digit. -/
theorem closesInBlank_of_opensLikeScript (hc : tag.Canonical) (hopen : tag.opensLikeScript = true) :
    tag.closesInBlank = false := by
  by_contra hclose
  rw [Bool.not_eq_false] at hclose
  obtain ⟨v, init, c, cs, hvariants, hdigit, -, -⟩ := hc.exists_of_closesInBlank hclose
  simp only [opensLikeScript, hvariants, List.head?_cons, Option.any_some, Bool.and_eq_true] at hopen
  obtain ⟨script, hscript⟩ := Option.isSome_iff_exists.mp hopen.2
  obtain ⟨-, hletters, d, ds, rfl, -⟩ := script?_eq_some_iff.mp hscript
  rw [List.all_cons, Bool.and_eq_true] at hletters
  -- the first variant begins with a letter, the last one with a digit: they are out of order
  have hascending : Ordered.Ascending ((d :: ds) :: (init ++ [c :: cs])) := hvariants ▸ hc.ascending
  have hbefore : compare (d :: ds) (c :: cs) = .lt :=
    (List.pairwise_cons.mp hascending).1 (c :: cs) (by simp)
  rw [List.compare_cons_cons, compare_letter_digit hletters.1 hdigit] at hbefore
  cases hbefore

/-- **A first variant that has the form of a script is read as one**: the tag that is read has
this script and the other variants, and another canonical text. -/
theorem parse_text_of_opensLikeScript (hc : tag.Canonical) (hopen : tag.opensLikeScript = true) :
    ∃ v rest script, tag.variants = v :: rest ∧ script? v = some script ∧
      parse tag.text = .ok ⟨tag.language, some script, none, rest⟩ := by
  have hclose := hc.closesInBlank_of_opensLikeScript hopen
  simp only [opensLikeScript, Bool.and_eq_true, Option.isNone_iff_eq_none] at hopen
  obtain ⟨⟨hscript, hregion⟩, hfirst⟩ := hopen
  cases hvariants : tag.variants with
  | nil => simp [hvariants] at hfirst
  | cons v rest =>
    obtain ⟨script, hform⟩ := Option.isSome_iff_exists.mp (show (script? v).isSome = true by
      simpa [hvariants] using hfirst)
    have hrest : rest.Sublist tag.variants := hvariants ▸ List.sublist_cons_self v rest
    have hparts : tag.parts =
        tag.language :: ((some v).toList ++ ((none : Option Text).toList ++ rest)) := by
      simp [parts, hscript, hregion, hvariants]
    refine ⟨v, rest, script, rfl, hform, ?_⟩
    have hscript' : (some v).map script? = (some script).map some := congrArg some hform
    have hregion' : (none : Option Text).map region? = (none : Option Text).map some := rfl
    rw [hc.parse_text_eq hclose, hparts,
      readSubtags_append hc.language hscript' hregion' (by simp) fun _ => hc.region?_next hrest,
      hc.mapM_variants hrest]
    simp only [hc.insertAll_variants hrest]

/-- **A last variant that ends in a blank is not read again**: without its blanks it is too short. -/
theorem parse_text_of_closesInBlank (hc : tag.Canonical) (hclose : tag.closesInBlank = true) :
    parse tag.text = .error .invalidSubtag := by
  obtain ⟨v, init, c, cs, hvariants, hdigit, hlength, hends⟩ := hc.exists_of_closesInBlank hclose
  obtain ⟨d, ds, rest, hfirst, hblank⟩ := hc.exists_letter
  have hopen : tag.opensLikeScript = false := by
    by_contra hopen
    rw [Bool.not_eq_false] at hopen
    exact absurd ((hc.closesInBlank_of_opensLikeScript hopen).symm.trans hclose) Bool.false_ne_true
  have hparts : tag.parts =
      (tag.language :: (tag.script.toList ++ (tag.region.toList ++ (v :: init)))) ++ [c :: cs] := by
    simp [parts, hvariants]
  have hshort : variant? (trimRight (c :: cs)) = none :=
    variant?_eq_none (hlength ▸ length_trimRight_lt hends)
  -- the variants before the last one are read as before
  have hinit : ((v :: init).Sublist tag.variants) := by
    rw [hvariants, ← List.cons_append]
    exact List.sublist_append_left _ _
  have hnext : ∀ s ∈ (tag.region.toList ++ (v :: init ++ [trimRight (c :: cs)])).head?,
      s ∈ (tag.region.toList ++ tag.variants).head? := by
    cases tag.region <;> simp [hvariants]
  rw [text_eq_join_parts, hparts, parse_join ⟨d, ds, rest, hparts ▸ hfirst, hblank⟩
    (hparts ▸ hc.plain_parts)
    (trimRight_ne_nil List.mem_cons_self (isBlank_of_isDigit hdigit))]
  rw [List.cons_append, List.append_assoc, List.append_assoc,
    readSubtags_append hc.language hc.script hc.region
      (fun hscript s hs => hc.script?_next hopen hscript s (hnext s hs))
      (fun _ s hs => hc.region?_next hinit s (by simpa using hs)),
    mapM_eq_none (List.mem_append_right (v :: init) (List.mem_singleton_self _)) hshort]

/-- Tags of one canonical text have the same subtags. -/
theorem parts_eq_of_text {other : LocaleTag} (hc : tag.Canonical) (hother : other.Canonical)
    (h : tag.text = other.text) : tag.parts = other.parts := by
  rw [text_eq_join_parts, text_eq_join_parts] at h
  rw [← subtags_join '-' (by decide) (by simp [parts]) hc.plain_parts, h,
    subtags_join '-' (by decide) (by simp [parts]) hother.plain_parts]

end Canonical

/-! ## Section 5: Tags that were read -/

/-- **The canonical text of a tag that was read is read as the same tag, with two exceptions**: a
first variant that has the form of a script, without a script or region before it, is read as a
script, which gives a tag of another canonical text; and a tag whose last variant ends in a blank
is not read at all. -/
theorem parse_text_of_parse {source : Text} {tag : LocaleTag} (h : parse source = .ok tag) :
    (parse tag.text = .ok tag ↔ tag.opensLikeScript = false ∧ tag.closesInBlank = false) ∧
      (tag.opensLikeScript = true →
        ∃ v rest script, tag.variants = v :: rest ∧ script? v = some script ∧
          parse tag.text = .ok ⟨tag.language, some script, none, rest⟩ ∧
          tag.same ⟨tag.language, some script, none, rest⟩ = false) ∧
      (tag.closesInBlank = true → parse tag.text = .error .invalidSubtag) := by
  have hc := canonical_of_parse h
  refine ⟨⟨fun hread => ⟨?_, ?_⟩, fun ⟨hopen, hclose⟩ => hc.parse_text hopen hclose⟩, fun hopen => ?_,
    hc.parse_text_of_closesInBlank⟩
  · by_contra hopen
    rw [Bool.not_eq_false] at hopen
    obtain ⟨v, rest, script, -, -, hother⟩ := hc.parse_text_of_opensLikeScript hopen
    -- the tag has no script, and the one that is read has
    have hscript : tag.script = some script :=
      congrArg LocaleTag.script (Except.ok.inj (hread.symm.trans hother))
    simp [opensLikeScript, hscript] at hopen
  · by_contra hclose
    rw [Bool.not_eq_false] at hclose
    cases hread.symm.trans (hc.parse_text_of_closesInBlank hclose)
  · obtain ⟨v, rest, script, hvariants, hform, hread⟩ := hc.parse_text_of_opensLikeScript hopen
    refine ⟨v, rest, script, hvariants, hform, hread, ?_⟩
    simp only [opensLikeScript, Bool.and_eq_true, Option.isNone_iff_eq_none] at hopen
    have hv : variant? v = some v := hc.variants v (by simp [hvariants])
    refine beq_false_of_ne fun htext => ne_of_script? hv hform ?_
    have hparts := hc.parts_eq_of_text (canonical_of_parse hread) htext
    simp only [parts, hopen.1.1, hopen.1.2, hvariants, Option.toList_none, Option.toList_some,
      List.nil_append, List.singleton_append, List.cons.injEq] at hparts
    exact hparts.2.1.symm

/-- A tag in mixed case whose variants are put in order. -/
theorem parse_text_of_parse_mixed :
    parse "EN_gb-Posix_1996".toList =
        .ok ⟨"en".toList, none, some "GB".toList, ["1996".toList, "posix".toList]⟩ ∧
      parse "en-GB-1996-posix".toList =
        .ok ⟨"en".toList, none, some "GB".toList, ["1996".toList, "posix".toList]⟩ := by
  have hread : parse "EN_gb-Posix_1996".toList =
      .ok ⟨"en".toList, none, some "GB".toList, ["1996".toList, "posix".toList]⟩ := by decide +kernel
  exact ⟨hread, (parse_text_of_parse hread).1.mpr (by decide)⟩

/-- A variant of four letters that comes to stand directly after the language is read as a
script. -/
theorem parse_text_posing_as_script :
    ∃ tag other, parse "en-basic-abcd".toList = .ok tag ∧ tag.text = "en-abcd-basic".toList ∧
      parse tag.text = .ok other ∧ other.text = "en-Abcd-basic".toList ∧ tag.same other = false :=
  ⟨⟨"en".toList, none, none, ["abcd".toList, "basic".toList]⟩,
    ⟨"en".toList, some "Abcd".toList, none, ["basic".toList]⟩, by decide +kernel⟩

/-- A variant of four characters that comes to stand at the end loses its blank there. -/
example : (parse "en-1ab -0abcd".toList).map (fun tag => parse tag.text) =
    .ok (.error .invalidSubtag) := by decide +kernel

end MessageCatalog.LocaleTag
