import MessageCatalog.Proofs.StableSort
import MessageCatalog.Proofs.Tables
import MessageCatalog.Proofs.TypesInForce
import Mathlib.Data.List.Nodup

/-!
# The outcome of a validation

Every problem belongs to a place: a key and a tracked locale. This module says for each place which
problems it has, without reference to the order in which the locales are walked over, and shows that
a validation reports exactly these problems, ordered by key and then by locale.

## Main statements

* `checkLocales_eq` : walking over the locales finds the problems of each place
* `foundErrors_eq` : the problems are found place by place, without repetition
* `validate_exact` : what a validation reports, and the signatures and templates it gives
-/

namespace MessageCatalog

namespace Validation

/-! ## Section 1: The problems of a place -/

/-- The signature that the template of a key has in a locale. There is none when the locale lacks
the key or the template is malformed or gives an index two types. -/
def signatureIn? (maps : Table LocaleTag LocaleMessages) (key : Text) (tag : LocaleTag) :
    Option Signature :=
  (templateIn maps key tag).bind fun template => (Template.parseSignature template).toOption

/-- The signatures of the secondary locales that stand before a locale in tag order. -/
def earlierSignatures (b : Bundle) (maps : Table LocaleTag LocaleMessages) (key : Text)
    (tag : LocaleTag) : List Signature :=
  (b.secondaryLocales.filter fun other => compare other tag == .lt).filterMap
    (signatureIn? maps key)

/-- The problems of a secondary locale with a key of the main locale, given the main signature and
the signatures of the earlier locales. -/
def secondaryProblems (key : Text) (main : Option Signature) (earlier : List Signature)
    (tag : LocaleTag) (template : Option Text) : List SpecError :=
  match template with
  | none => [missing key tag]
  | some template =>
    match Template.parseSignature template, main with
    | .error e, _ => [unreadable key tag e]
    | .ok _, none => []
    | .ok found, some main =>
      if found.size = main.size then typeMismatches key tag (inForce main earlier) found
      else [⟨key, some tag, .argCountMismatch, s!"expected {main.size} args, found {found.size}"⟩]

/-- **The problems of a place**: of a key that the main locale lacks, the key itself where a locale
has it; of the other keys, a main template without a signature, and what is wrong in each secondary
locale. -/
def problemsAt (b : Bundle) (maps : Table LocaleTag LocaleMessages) (key : Text)
    (tag : LocaleTag) : List SpecError :=
  match templateIn maps key b.mainLocale with
  | none =>
    match templateIn maps key tag with
    | none => []
    | some _ =>
      [⟨key, some tag, .extraKey, s!"key is not defined for main locale {b.mainLocale.str}"⟩]
  | some mainTemplate =>
    if tag = b.mainLocale then
      match Template.parseSignature mainTemplate with
      | .error e => [unreadable key tag e]
      | .ok _ => []
    else
      secondaryProblems key (signatureIn? maps key b.mainLocale) (earlierSignatures b maps key tag)
        tag (templateIn maps key tag)

/-- The signature of a key after all locales: that of the main template, with the types in force. -/
def finalSignature? (b : Bundle) (maps : Table LocaleTag LocaleMessages) (key : Text) :
    Option Signature :=
  (signatureIn? maps key b.mainLocale).map fun main =>
    inForce main (b.secondaryLocales.filterMap (signatureIn? maps key))

/-- The keys that a locale has. -/
def keysIn (maps : Table LocaleTag LocaleMessages) (tag : LocaleTag) : List Text :=
  match maps.get? tag with
  | none => []
  | some m => m.messages.keys

/-- The keys that some tracked locale has, in ascending order. -/
def knownKeys (b : Bundle) (maps : Table LocaleTag LocaleMessages) : List Text :=
  Ordered.insertAll [] (b.locales.flatMap (keysIn maps))

/-! ## Section 2: Walking over the locales -/

variable {b : Bundle} {maps : Table LocaleTag LocaleMessages} {key : Text} {tag : LocaleTag}

/-- **One step of the walk**: the problems of one more locale, and the types in force after it. -/
theorem checkLocale_eq (main : Option Signature) (earlier : List Signature) (tag : LocaleTag) :
    checkLocale key (main.map (inForce · earlier)) tag (templateIn maps key tag) =
      (main.map (inForce · (earlier ++ (signatureIn? maps key tag).toList)),
        secondaryProblems key main earlier tag (templateIn maps key tag)) := by
  unfold signatureIn?
  cases templateIn maps key tag with
  | none => simp [checkLocale, secondaryProblems]
  | some template =>
    simp only [checkLocale, secondaryProblems, readSignature, Option.bind_some]
    cases Template.parseSignature template with
    | error e => simp [Except.toOption]
    | ok found =>
      cases main with
      | none => rfl
      | some main =>
        simp only [Option.map_some, compareSignatures_inForce, Except.toOption,
          Option.toList_some]

theorem filter_before {before rest : List LocaleTag} {tag : LocaleTag}
    (h : Ordered.Ascending (before ++ tag :: rest)) :
    (before ++ tag :: rest).filter (fun other => compare other tag == .lt) = before := by
  obtain ⟨_, hrest, hcross⟩ := List.pairwise_append.mp h
  have hbefore : before.filter (fun other => compare other tag == .lt) = before :=
    List.filter_eq_self.mpr fun other ho => by simp [hcross other ho tag List.mem_cons_self]
  have hafter : rest.filter (fun other => compare other tag == .lt) = [] := by
    apply List.filter_eq_nil_iff.mpr
    intro other ho
    have hlt : compare tag other = .lt := (List.pairwise_cons.mp hrest).1 other ho
    simp [Std.OrientedCmp.gt_of_lt hlt]
  rw [List.filter_append, hbefore, List.filter_cons_of_neg (by simp), hafter, List.append_nil]

theorem ascending_secondaryLocales (b : Bundle) : Ordered.Ascending b.secondaryLocales :=
  b.ascending.filter _

/-- **The walk over the secondary locales**: each finds its own problems against the signatures
before it, and at the end the final signature stands. -/
theorem checkLocales_eq (before rest : List LocaleTag) (h : before ++ rest = b.secondaryLocales) :
    checkLocales key
        ((signatureIn? maps key b.mainLocale).map
          (inForce · (before.filterMap (signatureIn? maps key))))
        (rest.map fun tag => (tag, templateIn maps key tag)) =
      (finalSignature? b maps key,
        rest.flatMap fun tag =>
          secondaryProblems key (signatureIn? maps key b.mainLocale)
            (earlierSignatures b maps key tag) tag (templateIn maps key tag)) := by
  -- the locales already walked over settle the types that are in force for the next one
  induction rest generalizing before with
  | nil =>
    obtain rfl : before = b.secondaryLocales := by simpa using h
    rfl
  | cons tag rest ih =>
    have hearlier : earlierSignatures b maps key tag = before.filterMap (signatureIn? maps key) := by
      have hasc := ascending_secondaryLocales b
      rw [earlierSignatures, ← h, filter_before (h ▸ hasc)]
    have hnext := ih (before ++ [tag]) (by simpa using h)
    rw [List.filterMap_append] at hnext
    have hone : [tag].filterMap (signatureIn? maps key) = (signatureIn? maps key tag).toList := by
      cases hs : signatureIn? maps key tag <;> simp [hs]
    rw [hone] at hnext
    simp only [List.map_cons, checkLocales, checkLocale_eq, hnext, List.flatMap_cons, hearlier]

/-! ## Section 3: The walk over the keys -/

/-- The main locale is tracked, and the other tracked locales are the secondary ones. -/
theorem mem_secondaryLocales_iff : tag ∈ b.secondaryLocales ↔ tag ∈ b.locales ∧ tag ≠ b.mainLocale := by
  simp only [Bundle.secondaryLocales, List.mem_filter, LocaleTag.same, Bool.not_eq_true',
    beq_eq_false_iff_ne]
  refine and_congr_right fun hmem => not_congr ⟨fun h => ?_, fun h => h ▸ rfl⟩
  refine b.ascending.eq_of_compare hmem b.main_mem ?_
  show compare tag.text b.mainLocale.text = .eq
  rw [h, Std.compare_self]

/-- The templates of the main locale are those looked up in it. -/
theorem get?_mainMessages (b : Bundle) (maps : Table LocaleTag LocaleMessages) (key : Text) :
    (mainMessages b maps).get? key = templateIn maps key b.mainLocale := by
  unfold mainMessages templateIn
  cases maps.get? b.mainLocale <;> rfl

/-- A locale has the keys for which it has a template. -/
theorem mem_keysIn_iff : key ∈ keysIn maps tag ↔ (templateIn maps key tag).isSome = true := by
  unfold keysIn templateIn
  cases maps.get? tag with
  | none => simp
  | some m => exact Table.contains_iff_mem_keys.symm

/-- **One key of the main locale**: its final signature, and the problems of its places. -/
theorem checkKey_eq {template : Text} (h : templateIn maps key b.mainLocale = some template) :
    let outcome := checkKey key b.mainLocale template
      (b.secondaryLocales.map fun tag => (tag, templateIn maps key tag))
    outcome.1.signature = finalSignature? b maps key ∧
      outcome.2 = (b.mainLocale :: b.secondaryLocales).flatMap (problemsAt b maps key) := by
  have hsecondary : b.secondaryLocales.flatMap (problemsAt b maps key) =
      b.secondaryLocales.flatMap fun tag =>
        secondaryProblems key (signatureIn? maps key b.mainLocale)
          (earlierSignatures b maps key tag) tag (templateIn maps key tag) := by
    apply List.flatMap_congr
    intro tag htag
    simp [problemsAt, h, (mem_secondaryLocales_iff.mp htag).2]
  have hwalk := @checkLocales_eq b maps key [] b.secondaryLocales rfl
  simp only [List.filterMap_nil, inForce_nil, Option.map_id'] at hwalk
  have hmain : (readSignature key b.mainLocale template).1 = signatureIn? maps key b.mainLocale := by
    simp only [readSignature, signatureIn?, h, Option.bind_some]
    cases Template.parseSignature template <;> rfl
  have hproblems : (readSignature key b.mainLocale template).2 = problemsAt b maps key b.mainLocale := by
    simp only [readSignature, problemsAt, h, if_true]
    cases Template.parseSignature template <;> rfl
  simp only [checkKey, hmain, hwalk, hproblems, List.flatMap_cons, hsecondary, and_self]

/-! ## Section 4: Places -/

/-- The keys of a locale that the main locale lacks. -/
def foreignKeys (b : Bundle) (maps : Table LocaleTag LocaleMessages) (tag : LocaleTag) : List Text :=
  (keysIn maps tag).filter fun key => !(mainMessages b maps).contains key

/-- The places in the order in which they are visited: the keys of the main locale with all locales,
then the keys that only the others have. -/
def visitedPlaces (b : Bundle) (maps : Table LocaleTag LocaleMessages) : List (Text × LocaleTag) :=
  ((mainMessages b maps).keys ×ˢ (b.mainLocale :: b.secondaryLocales)) ++
    b.secondaryLocales.flatMap fun tag => (foreignKeys b maps tag).map (·, tag)

/-- The places in report order. -/
def reportedPlaces (b : Bundle) (maps : Table LocaleTag LocaleMessages) : List (Text × LocaleTag) :=
  knownKeys b maps ×ˢ b.locales

private theorem templateIn_of_mem_foreignKeys (h : key ∈ foreignKeys b maps tag) :
    templateIn maps key b.mainLocale = none ∧ ∃ template, templateIn maps key tag = some template := by
  obtain ⟨hkey, hlacks⟩ := List.mem_filter.mp h
  refine ⟨?_, Option.isSome_iff_exists.mp (mem_keysIn_iff.mp hkey)⟩
  simpa [Table.contains, get?_mainMessages] using hlacks

private theorem extraKeys_eq (b : Bundle) (maps : Table LocaleTag LocaleMessages) (tag : LocaleTag) :
    extraKeys b.mainLocale (mainMessages b maps) maps tag =
      (foreignKeys b maps tag).flatMap fun key => problemsAt b maps key tag := by
  have hmap : extraKeys b.mainLocale (mainMessages b maps) maps tag =
      (foreignKeys b maps tag).map fun key =>
        ⟨key, some tag, .extraKey, s!"key is not defined for main locale {b.mainLocale.str}"⟩ := by
    unfold extraKeys foreignKeys keysIn
    cases maps.get? tag <;> rfl
  rw [hmap, List.map_eq_flatMap]
  apply List.flatMap_congr
  intro key hkey
  obtain ⟨hmain, template, htemplate⟩ := templateIn_of_mem_foreignKeys hkey
  simp only [problemsAt, hmain, htemplate]

/-- **The problems are found place by place.** -/
theorem foundErrors_eq (b : Bundle) (maps : Table LocaleTag LocaleMessages) :
    foundErrors b maps =
      (visitedPlaces b maps).flatMap fun (key, tag) => problemsAt b maps key tag := by
  have hmain : (checkKeys b maps (mainMessages b maps)).flatMap Prod.snd =
      ((mainMessages b maps).keys ×ˢ (b.mainLocale :: b.secondaryLocales)).flatMap
        fun (key, tag) => problemsAt b maps key tag := by
    simp only [checkKeys, Table.keys, SProd.sprod, List.product, List.flatMap_map,
      List.flatMap_assoc]
    apply List.flatMap_congr
    rintro ⟨key, template⟩ hentry
    have htemplate : templateIn maps key b.mainLocale = some template := by
      rw [← get?_mainMessages]
      exact Table.get?_of_mem hentry
    exact (checkKey_eq htemplate).2
  have hforeign : b.secondaryLocales.flatMap (extraKeys b.mainLocale (mainMessages b maps) maps) =
      (b.secondaryLocales.flatMap fun tag => (foreignKeys b maps tag).map (·, tag)).flatMap
        fun (key, tag) => problemsAt b maps key tag := by
    simp only [List.flatMap_assoc, List.flatMap_map]
    exact List.flatMap_congr fun tag _ => extraKeys_eq b maps tag
  rw [foundErrors, hmain, hforeign, ← List.flatMap_append]
  rfl

/-- No place is visited twice. -/
theorem nodup_visitedPlaces (b : Bundle) (maps : Table LocaleTag LocaleMessages) :
    (visitedPlaces b maps).Nodup := by
  have hsecondary : b.secondaryLocales.Nodup := (ascending_secondaryLocales b).nodup
  have hlocales : (b.mainLocale :: b.secondaryLocales).Nodup :=
    List.nodup_cons.mpr ⟨fun h => (mem_secondaryLocales_iff.mp h).2 rfl, hsecondary⟩
  have hkeys : (mainMessages b maps).keys.Nodup := (Table.ascending_keys _).nodup
  have hforeign : ∀ tag, (foreignKeys b maps tag).Nodup := by
    intro tag
    apply List.Nodup.filter
    unfold keysIn
    split
    · exact List.nodup_nil
    · exact (Table.ascending_keys _).nodup
  refine List.nodup_append.mpr ⟨hkeys.product hlocales, List.nodup_flatMap.mpr ⟨?_, ?_⟩, ?_⟩
  · intro tag _
    exact (hforeign tag).map fun _ _ h => (Prod.mk.inj h).1
  · -- places of different locales differ
    refine List.Pairwise.imp ?_ hsecondary
    intro first second hne place hfirst hsecond
    obtain ⟨_, _, rfl⟩ := List.mem_map.mp hfirst
    obtain ⟨_, _, heq⟩ := List.mem_map.mp hsecond
    exact hne (Prod.mk.inj heq).2.symm
  · -- foreign keys are no keys of the main locale
    rintro ⟨key, tag⟩ hmain _ hother rfl
    obtain ⟨tag', _, hplace⟩ := List.mem_flatMap.mp hother
    obtain ⟨key', hkey', heq⟩ := List.mem_map.mp hplace
    obtain ⟨rfl, rfl⟩ := Prod.mk.inj heq
    have hlacks := (List.mem_filter.mp hkey').2
    have hhas := Table.contains_iff_mem_keys.mpr (List.pair_mem_product.mp hmain).1
    simp [hhas] at hlacks

theorem nodup_reportedPlaces (b : Bundle) (maps : Table LocaleTag LocaleMessages) :
    (reportedPlaces b maps).Nodup :=
  List.Nodup.product (Ordered.ascending_insertAll .nil).nodup b.ascending.nodup

/-- A key is known when some tracked locale has a template for it. -/
theorem mem_knownKeys_iff :
    key ∈ knownKeys b maps ↔ ∃ tag ∈ b.locales, (templateIn maps key tag).isSome = true := by
  simp [knownKeys, Ordered.mem_insertAll_iff, mem_keysIn_iff]

/-- The visited places are tracked places of known keys. -/
theorem mem_reportedPlaces_of_mem_visitedPlaces (h : (key, tag) ∈ visitedPlaces b maps) :
    (key, tag) ∈ reportedPlaces b maps := by
  apply List.pair_mem_product.mpr
  rcases List.mem_append.mp h with h | h
  · -- a key of the main locale, in any tracked locale
    obtain ⟨hkey, htag⟩ := List.pair_mem_product.mp h
    obtain ⟨template, _, hget⟩ := Table.isSome_get?_of_mem_keys hkey
    rw [get?_mainMessages] at hget
    refine ⟨mem_knownKeys_iff.mpr ⟨b.mainLocale, b.main_mem, by simp [hget]⟩, ?_⟩
    rcases List.mem_cons.mp htag with rfl | htag
    · exact b.main_mem
    · exact (mem_secondaryLocales_iff.mp htag).1
  · -- a foreign key, in the locale that has it
    obtain ⟨tag', htag', hplace⟩ := List.mem_flatMap.mp h
    obtain ⟨key', hkey', heq⟩ := List.mem_map.mp hplace
    obtain ⟨rfl, rfl⟩ := Prod.mk.inj heq
    have htracked := (mem_secondaryLocales_iff.mp htag').1
    obtain ⟨_, template, htemplate⟩ := templateIn_of_mem_foreignKeys hkey'
    exact ⟨mem_knownKeys_iff.mpr ⟨tag', htracked, by simp [htemplate]⟩, htracked⟩

/-- A tracked place that is not visited has no problem. -/
theorem problemsAt_of_not_mem_visitedPlaces (htag : tag ∈ b.locales)
    (h : (key, tag) ∉ visitedPlaces b maps) : problemsAt b maps key tag = [] := by
  have hmem : tag ∈ b.mainLocale :: b.secondaryLocales := by
    by_cases hmain : tag = b.mainLocale
    · exact hmain ▸ List.mem_cons_self
    · exact List.mem_cons_of_mem _ (mem_secondaryLocales_iff.mpr ⟨htag, hmain⟩)
  have hkey : key ∉ (mainMessages b maps).keys := fun hkey =>
    h (List.mem_append_left _ (List.pair_mem_product.mpr ⟨hkey, hmem⟩))
  have hlacks : templateIn maps key b.mainLocale = none := by
    rw [← get?_mainMessages]
    by_contra hhas
    exact hkey (Table.contains_iff_mem_keys.mp (Option.isSome_iff_ne_none.mpr hhas))
  -- a secondary locale that had the key would make it a foreign key
  have hnone : templateIn maps key tag = none := by
    rcases List.mem_cons.mp hmem with rfl | hsecondary
    · exact hlacks
    · by_contra hhas
      refine h (List.mem_append_right _ (List.mem_flatMap.mpr ⟨tag, hsecondary, ?_⟩))
      refine List.mem_map.mpr ⟨key, List.mem_filter.mpr ⟨?_, ?_⟩, rfl⟩
      · exact mem_keysIn_iff.mpr (Option.isSome_iff_ne_none.mpr hhas)
      · simp [Table.contains, get?_mainMessages, hlacks]
  simp only [problemsAt, hlacks, hnone]

/-! ## Section 5: The order of reports -/

/-- The order of problems: by key, then by locale. -/
def reportOrder (e e' : SpecError) : Ordering :=
  (compare e.key e'.key).then (SpecError.compareLocale e.locale e'.locale)

instance : Std.TransCmp reportOrder := by
  have : reportOrder = compareLex (compareOn SpecError.key) (compareOn SpecError.locale) := by
    funext e e'
    unfold reportOrder compareLex compareOn
    cases e.locale <;> cases e'.locale <;> rfl
  rw [this]
  infer_instance

private theorem place_of_mem_typeMismatches {e : SpecError} {inForce found : Signature}
    (h : e ∈ typeMismatches key tag inForce found) : e.key = key ∧ e.locale = some tag := by
  obtain ⟨⟨⟨expected, type⟩, index⟩, _, hsome⟩ := List.mem_filterMap.mp h
  obtain ⟨_, hsome⟩ := Option.ite_none_right_eq_some.mp hsome
  obtain rfl := Option.some.inj hsome
  exact ⟨rfl, rfl⟩

private theorem place_of_mem_secondaryProblems {e : SpecError} {main : Option Signature}
    {earlier : List Signature} {template : Option Text}
    (h : e ∈ secondaryProblems key main earlier tag template) :
    e.key = key ∧ e.locale = some tag := by
  unfold secondaryProblems at h
  split at h
  · obtain rfl := List.mem_singleton.mp h
    exact ⟨rfl, rfl⟩
  · split at h
    · obtain rfl := List.mem_singleton.mp h
      exact ⟨rfl, rfl⟩
    · cases h
    · split at h
      · exact place_of_mem_typeMismatches h
      · obtain rfl := List.mem_singleton.mp h
        exact ⟨rfl, rfl⟩

/-- A problem names its place. -/
theorem place_of_mem_problemsAt {e : SpecError} (h : e ∈ problemsAt b maps key tag) :
    e.key = key ∧ e.locale = some tag := by
  unfold problemsAt at h
  split at h
  · -- a key that the main locale lacks
    split at h
    · cases h
    · obtain rfl := List.mem_singleton.mp h
      exact ⟨rfl, rfl⟩
  · split at h
    · split at h
      · obtain rfl := List.mem_singleton.mp h
        exact ⟨rfl, rfl⟩
      · cases h
    · exact place_of_mem_secondaryProblems h

/-- Problems of two tracked places are in one class exactly when the places are the same. -/
theorem inClass_reportOrder_iff {key' : Text} {tag' : LocaleTag} {e e' : SpecError}
    (htag : tag ∈ b.locales) (htag' : tag' ∈ b.locales) (h : e ∈ problemsAt b maps key tag)
    (h' : e' ∈ problemsAt b maps key' tag') :
    Ordered.inClass reportOrder e e' = decide ((key', tag') = (key, tag)) := by
  obtain ⟨rfl, hlocale⟩ := place_of_mem_problemsAt h
  obtain ⟨rfl, hlocale'⟩ := place_of_mem_problemsAt h'
  have hiff : reportOrder e e' = .eq ↔ (e'.key, tag') = (e.key, tag) := by
    simp only [reportOrder, hlocale, hlocale', SpecError.compareLocale, Ordering.then_eq_eq,
      Std.LawfulEqCmp.compare_eq_iff_eq, Prod.mk.injEq]
    constructor
    · rintro ⟨hkey, hcompare⟩
      exact ⟨hkey.symm, (b.ascending.eq_of_compare htag htag' hcompare).symm⟩
    · rintro ⟨hkey, rfl⟩
      exact ⟨hkey.symm, Std.compare_self⟩
  rw [Ordered.inClass]
  exact Bool.eq_iff_iff.mpr (by simpa using hiff)

/-- The problems of the places in report order are in order. -/
theorem sorted_reportedPlaces (b : Bundle) (maps : Table LocaleTag LocaleMessages) :
    Ordered.Sorted reportOrder
      ((reportedPlaces b maps).flatMap fun (key, tag) => problemsAt b maps key tag) := by
  refine List.pairwise_flatMap.mpr ⟨?_, ?_⟩
  · -- at one place all problems are in one class
    rintro ⟨key, tag⟩ hplace
    have htag := (List.pair_mem_product.mp hplace).2
    apply List.pairwise_iff_forall_sublist.mpr
    intro e e' hsub
    have he : e ∈ problemsAt b maps key tag := hsub.subset (by simp)
    have he' : e' ∈ problemsAt b maps key tag := hsub.subset (by simp)
    have hclass := inClass_reportOrder_iff htag htag he he'
    have heq : reportOrder e e' = .eq := by simpa [Ordered.inClass] using hclass
    rw [heq]
    rfl
  · -- two places differ in the key, or have one key and differ in the locale
    have hkeys : Ordered.Ascending (knownKeys b maps) := Ordered.ascending_insertAll .nil
    have horder : (reportedPlaces b maps).Pairwise fun p q =>
        compare p.1 q.1 = .lt ∨ p.1 = q.1 ∧ compare p.2 q.2 = .lt := by
      simp only [reportedPlaces, SProd.sprod, List.product]
      refine List.pairwise_flatMap.mpr ⟨fun key _ => ?_, ?_⟩
      · exact List.pairwise_map.mpr (b.ascending.imp fun h => .inr ⟨rfl, h⟩)
      · refine hkeys.imp fun {key key'} hlt p hp q hq => .inl ?_
        obtain ⟨_, _, rfl⟩ := List.mem_map.mp hp
        obtain ⟨_, _, rfl⟩ := List.mem_map.mp hq
        exact hlt
    refine horder.imp fun {p q} hpq e he e' he' => ?_
    obtain ⟨hkey, hlocale⟩ := place_of_mem_problemsAt he
    obtain ⟨hkey', hlocale'⟩ := place_of_mem_problemsAt he'
    rcases hpq with hlt | ⟨heq, hlt⟩
    · simp [reportOrder, hkey, hkey', hlt]
    · simp [reportOrder, hkey, hkey', hlocale, hlocale', SpecError.compareLocale, heq, hlt]

/-- **The report**: the problems of all places, by key and then by locale. -/
theorem sortErrors_foundErrors (b : Bundle) (maps : Table LocaleTag LocaleMessages) :
    sortErrors (foundErrors b maps) =
      (reportedPlaces b maps).flatMap fun (key, tag) => problemsAt b maps key tag := by
  refine @Ordered.mergeSort_eq_of_filter _ reportOrder _ _ _ (sorted_reportedPlaces b maps) ?_
  intro e he
  -- the place of the problem
  obtain ⟨key, tag, hplace, hmem⟩ : ∃ key tag, (key, tag) ∈ reportedPlaces b maps ∧
      e ∈ problemsAt b maps key tag := by
    rw [foundErrors_eq] at he
    rcases List.mem_append.mp he with he | he
    · obtain ⟨⟨key, tag⟩, hplace, he⟩ := List.mem_flatMap.mp he
      exact ⟨key, tag, mem_reportedPlaces_of_mem_visitedPlaces hplace, he⟩
    · obtain ⟨⟨key, tag⟩, hplace, he⟩ := List.mem_flatMap.mp he
      exact ⟨key, tag, hplace, he⟩
  have htag := (List.pair_mem_product.mp hplace).2
  -- so its class is the list of problems of that place, on either side
  have label : ∀ place ∈ reportedPlaces b maps, ∀ e' ∈ problemsAt b maps place.1 place.2,
      Ordered.inClass reportOrder e e' = decide (place = (key, tag)) :=
    fun place hp e' he' => inClass_reportOrder_iff htag (List.pair_mem_product.mp hp).2 hmem he'
  rw [foundErrors_eq,
    Ordered.filter_flatMap_of_unique (fun place : Text × LocaleTag =>
      problemsAt b maps place.1 place.2) _ (key, tag) (nodup_visitedPlaces b maps)
      fun place hp => label place (mem_reportedPlaces_of_mem_visitedPlaces hp),
    Ordered.filter_flatMap_of_unique (fun place : Text × LocaleTag =>
      problemsAt b maps place.1 place.2) _ (key, tag) (nodup_reportedPlaces b maps) label,
    if_pos hplace]
  split
  · rfl
  · rename_i hnot
    exact (problemsAt_of_not_mem_visitedPlaces htag hnot).symm

/-! ## Section 6: The specifications -/

/-- What a validation knows of the keys: one specification for each key of the main locale. -/
theorem entries_specs (b : Bundle) (maps : Table LocaleTag LocaleMessages) :
    (b.validate maps).specs.entries =
      (mainMessages b maps).entries.map fun (key, template) =>
        (key, (checkKey key b.mainLocale template
          (b.secondaryLocales.map fun tag => (tag, templateIn maps key tag))).1) := by
  have hentries : ((checkKeys b maps (mainMessages b maps)).map fun e => (e.1.key, e.1)) =
      (mainMessages b maps).entries.map fun e =>
        (e.1, (checkKey e.1 b.mainLocale e.2
          (b.secondaryLocales.map fun tag => (tag, templateIn maps e.1 tag))).1) := by
    rw [checkKeys, List.map_map]
    rfl
  show (Table.ofList ((checkKeys b maps (mainMessages b maps)).map fun e => (e.1.key, e.1))).entries =
    _
  rw [hentries]
  exact Table.entries_ofList (List.pairwise_map.mpr (mainMessages b maps).ascending)

/-- The specification of a key, if the main locale has it. -/
theorem get?_specs (b : Bundle) (maps : Table LocaleTag LocaleMessages) (key : Text) :
    (b.validate maps).specs.get? key =
      (templateIn maps key b.mainLocale).map fun template =>
        (checkKey key b.mainLocale template
          (b.secondaryLocales.map fun tag => (tag, templateIn maps key tag))).1 := by
  apply Option.ext
  intro spec
  rw [Table.get?_eq_some_iff, entries_specs, ← get?_mainMessages]
  simp only [List.mem_map, Option.map_eq_some_iff, Table.get?_eq_some_iff, Prod.mk.injEq]
  constructor
  · rintro ⟨⟨key', template⟩, hmem, rfl, hspec⟩
    exact ⟨template, hmem, hspec⟩
  · rintro ⟨template, hmem, hspec⟩
    exact ⟨(key, template), hmem, rfl, hspec⟩

theorem templateIn_congr {tag' : LocaleTag} (h : compare tag tag' = .eq) :
    templateIn maps key tag = templateIn maps key tag' := by
  rw [templateIn, templateIn, Table.get?_congr h]

/-- The templates of a key by tracked locale, the main one first. -/
def trackedTemplates (b : Bundle) (maps : Table LocaleTag LocaleMessages) (key template : Text) :
    List (LocaleTag × Text) :=
  (b.mainLocale, template) ::
    (b.secondaryLocales.map fun tag => (tag, templateIn maps key tag)).filterMap
      fun (tag, template) => template.map (tag, ·)

private theorem mem_secondaryTemplates_iff {locales : List LocaleTag} {template : Text} :
    (tag, template) ∈ (locales.map fun tag => (tag, templateIn maps key tag)).filterMap
        (fun (tag, template) => template.map (tag, ·)) ↔
      tag ∈ locales ∧ templateIn maps key tag = some template := by
  simp only [List.mem_filterMap, List.mem_map, Prod.exists]
  constructor
  · rintro ⟨_, found, ⟨tag', hmem, heq⟩, hsome⟩
    obtain ⟨rfl, rfl⟩ := Prod.mk.inj heq
    obtain ⟨template', hfound, heq'⟩ := Option.map_eq_some_iff.mp hsome
    obtain ⟨rfl, rfl⟩ := Prod.mk.inj heq'
    exact ⟨hmem, hfound⟩
  · rintro ⟨hmem, hfound⟩
    exact ⟨tag, some template, ⟨tag, hmem, by rw [hfound]⟩, rfl⟩

/-- They are the templates that the tracked locales have. -/
theorem mem_trackedTemplates_iff {template found : Text}
    (h : templateIn maps key b.mainLocale = some template) :
    (tag, found) ∈ trackedTemplates b maps key template ↔
      tag ∈ b.locales ∧ templateIn maps key tag = some found := by
  rw [trackedTemplates, List.mem_cons, mem_secondaryTemplates_iff, mem_secondaryLocales_iff]
  constructor
  · rintro (heq | ⟨⟨hmem, _⟩, hfound⟩)
    · obtain ⟨rfl, rfl⟩ := Prod.mk.inj heq
      exact ⟨b.main_mem, h⟩
    · exact ⟨hmem, hfound⟩
  · rintro ⟨hmem, hfound⟩
    by_cases hmain : tag = b.mainLocale
    · subst hmain
      exact .inl (Prod.ext rfl (Option.some.inj (hfound.symm.trans h)))
    · exact .inr ⟨⟨hmem, hmain⟩, hfound⟩

theorem same_iff_compare {tag' : LocaleTag} :
    tag'.same tag = true ↔ compare tag tag' = .eq := by
  show (tag'.text == tag.text) = true ↔ compare tag.text tag'.text = .eq
  rw [beq_iff_eq, Std.LawfulEqCmp.compare_eq_iff_eq, eq_comm]

/-- **The templates of a key of the main locale** are those of the tracked locales. -/
theorem get?_templates {template : Text} (h : templateIn maps key b.mainLocale = some template)
    (tag : LocaleTag) :
    (checkKey key b.mainLocale template
        (b.secondaryLocales.map fun tag => (tag, templateIn maps key tag))).1.templates.get? tag =
      if b.locales.any (·.same tag) then templateIn maps key tag else none := by
  show (Table.ofList (trackedTemplates b maps key template)).get? tag = _
  -- an entry for the tag is the template of a tracked locale that is the same
  have hentry : ∀ e ∈ trackedTemplates b maps key template, compare tag e.1 = .eq →
      e.1 ∈ b.locales ∧ templateIn maps key tag = some e.2 := by
    intro e he hcompare
    obtain ⟨hmem, hfound⟩ := (mem_trackedTemplates_iff h).mp he
    exact ⟨hmem, (templateIn_congr hcompare).trans hfound⟩
  by_cases htracked : b.locales.any (·.same tag) = true
  · rw [if_pos htracked]
    obtain ⟨tag', hmem, hsame⟩ := List.any_eq_true.mp htracked
    have hcompare : compare tag tag' = .eq := same_iff_compare.mp hsame
    cases hfound : templateIn maps key tag with
    | none =>
      apply Table.get?_ofList_eq_none
      intro e he hk
      have hsome := (hentry e he hk).2
      rw [hfound] at hsome
      cases hsome
    | some found =>
      have hfound' : templateIn maps key tag' = some found :=
        (templateIn_congr hcompare).symm.trans hfound
      apply Table.get?_ofList_eq_some
      · exact ⟨(tag', found), (mem_trackedTemplates_iff h).mpr ⟨hmem, hfound'⟩, hcompare⟩
      · intro e he hk
        exact (Option.some.inj (hfound.symm.trans (hentry e he hk).2)).symm
  · rw [if_neg htracked]
    apply Table.get?_ofList_eq_none
    intro e he hk
    exact htracked (List.any_eq_true.mpr ⟨e.1, (hentry e he hk).1, same_iff_compare.mpr hk⟩)

/-- The signature of a message is its final one. -/
theorem signature?_eq (b : Bundle) (maps : Table LocaleTag LocaleMessages) (key : Text) :
    (b.validate maps).signature? key = finalSignature? b maps key := by
  rw [MessageSpecs.signature?, get?_specs]
  cases hmain : templateIn maps key b.mainLocale with
  | none => simp [finalSignature?, signatureIn?, hmain]
  | some template => exact (checkKey_eq hmain).1

/-- **What a validation gives.** The problems are those of the places, by key and then by locale; the
specified keys are those of the main locale, each with its final signature and with its templates in
the tracked locales. -/
theorem validate_exact (b : Bundle) (maps : Table LocaleTag LocaleMessages) :
    (b.validate maps).errors =
        (knownKeys b maps).flatMap (fun key => b.locales.flatMap (problemsAt b maps key)) ∧
      (b.validate maps).specs.keys = (mainMessages b maps).keys ∧
      (∀ key, (b.validate maps).signature? key = finalSignature? b maps key) ∧
      ∀ key tag, (b.validate maps).template? key tag =
        if (templateIn maps key b.mainLocale).isSome ∧ b.locales.any (·.same tag) then
          templateIn maps key tag
        else none := by
  refine ⟨?_, ?_, fun key => ?_, fun key tag => ?_⟩
  · show sortErrors (foundErrors b maps) = _
    rw [sortErrors_foundErrors, reportedPlaces]
    simp only [SProd.sprod, List.product, List.flatMap_assoc, List.flatMap_map]
  · rw [Table.keys, entries_specs, List.map_map]
    rfl
  · exact signature?_eq b maps key
  · rw [MessageSpecs.template?, get?_specs]
    cases hmain : templateIn maps key b.mainLocale with
    | none => simp
    | some template => simpa using get?_templates hmain tag

end Validation

end MessageCatalog
