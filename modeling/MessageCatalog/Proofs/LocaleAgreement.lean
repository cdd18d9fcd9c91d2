import MessageCatalog.Proofs.ValidationOutcome
import Mathlib.Data.List.Pairwise

/-!
# Agreement between locales

A validation walks over the locales in one order and settles open types as it goes. Whether it finds
a problem does not depend on that order: it finds none exactly when any two locales agree, each with
the other. Then the signature of a message has the types that the locales have in common.

## Main statements

* `agrees_inForce_iff` : to agree with the types in force is to agree with each signature before
* `checkLocales_eq_nil_iff` : a walk without problems, in whatever order
* `isClean_iff_consistent` : a bundle is clean exactly when its locales agree
-/

namespace MessageCatalog

/-! ## Section 1: Signatures that agree -/

namespace Signature

/-- Two signatures agree when they have as many arguments and name no two types for one of them. -/
def Agrees (s t : Signature) : Prop :=
  s.size = t.size ∧
    ∀ index type type', s.get? index = some type → t.get? index = some type' →
      type.isConcrete = true → type'.isConcrete = true → type = type'

theorem Agrees.refl (s : Signature) : s.Agrees s := by
  refine ⟨rfl, ?_⟩
  intro index type type' h h' _ _
  exact Option.some.inj (h.symm.trans h')

theorem Agrees.symm {s t : Signature} (h : s.Agrees t) : t.Agrees s := by
  refine ⟨h.1.symm, ?_⟩
  intro index type type' hs ht hconcrete hconcrete'
  exact (h.2 index type' type ht hs hconcrete' hconcrete).symm

instance : Std.Symm Agrees := ⟨fun _ _ => Agrees.symm⟩

/-- In a list of signatures that agree in pairs, any two do. -/
theorem agrees_of_pairwise {signatures : List Signature} (h : signatures.Pairwise Agrees)
    {s t : Signature} (hs : s ∈ signatures) (ht : t ∈ signatures) : s.Agrees t :=
  h.forall_of_forall (fun s _ => Agrees.refl s) hs ht

end Signature

namespace Validation

open Signature

variable {b : Bundle} {maps : Table LocaleTag LocaleMessages} {key : Text} {tag : LocaleTag}
  {main found : Signature} {earlier : List Signature} {index : Nat} {type : ArgType}

theorem agrees_iff_typeMismatches_eq_nil (key : Text) (tag : LocaleTag) {s t : Signature} :
    s.Agrees t ↔ t.size = s.size ∧ typeMismatches key tag s t = [] := by
  constructor
  · rintro ⟨hsize, hagree⟩
    refine ⟨hsize.symm, List.filterMap_eq_nil_iff.mpr ?_⟩
    rintro ⟨⟨expected, type⟩, index⟩ hmem
    have hzip := List.mem_zipIdx_iff_getElem?.mp hmem
    obtain ⟨hexpected, htype⟩ := List.getElem?_zip_eq_some.mp hzip
    apply if_neg
    rintro ⟨hconcrete, hconcrete', hne⟩
    exact hne (hagree index expected type hexpected htype hconcrete hconcrete')
  · rintro ⟨hsize, hnone⟩
    refine ⟨hsize.symm, ?_⟩
    intro index type type' hs ht hconcrete hconcrete'
    exact eq_of_typeMismatches_eq_nil hnone hs ht hconcrete hconcrete'

/-! ## Section 2: The types in force among signatures that agree -/

/-- Among signatures that agree, whatever type one of them gives is the one in force. -/
theorem typeInForce?_of_mem (h : (main :: earlier).Pairwise Agrees) (hmem : found ∈ main :: earlier)
    (htype : found.get? index = some type) (hconcrete : type.isConcrete = true) :
    typeInForce? main earlier index = some type := by
  -- all of them have a say, as they have as many arguments as the main signature
  have hsay : earlier.filter (fun s => s.size == main.size) = earlier := by
    apply List.filter_eq_self.mpr
    intro s hs
    have hagree := agrees_of_pairwise h (List.mem_cons_of_mem main hs) List.mem_cons_self
    exact beq_iff_eq.mpr hagree.1
  have hgiven : type ∈ (main :: earlier).filterMap (·.get? index) :=
    List.mem_filterMap.mpr ⟨found, hmem, htype⟩
  rw [typeInForce?, hsay]
  cases hfirst : ((main :: earlier).filterMap (·.get? index)).find? ArgType.isConcrete with
  | none =>
    have hopen := List.find?_eq_none.mp hfirst type hgiven
    exact absurd hconcrete hopen
  | some first =>
    -- the first type is given by one of them too, so it is the same
    obtain ⟨s, hs, hget⟩ := List.mem_filterMap.mp (List.mem_of_find?_eq_some hfirst)
    have hagree := agrees_of_pairwise h hs hmem
    rw [hagree.2 index first type hget htype (List.find?_some hfirst) hconcrete]

/-- A type in force has been given by one of the signatures. -/
theorem exists_mem_of_typeInForce? (h : typeInForce? main earlier index = some type) :
    ∃ s ∈ main :: earlier, s.get? index = some type := by
  obtain ⟨s, hs, hget⟩ := List.mem_filterMap.mp (List.mem_of_find?_eq_some h)
  refine ⟨s, ?_, hget⟩
  rcases List.mem_cons.mp hs with rfl | hs
  · exact List.mem_cons_self
  · exact List.mem_cons_of_mem main (List.mem_filter.mp hs).1

theorem typeInForce?_of_get?_inForce (h : (inForce main earlier).get? index = some type)
    (hconcrete : type.isConcrete = true) : typeInForce? main earlier index = some type := by
  have hlt : index < main.size := by
    have := (List.getElem?_eq_some_iff.mp h).1
    simpa [inForce] using this
  cases hforce : typeInForce? main earlier index with
  | some type' => exact (get?_inForce hforce hlt).symm.trans h
  | none =>
    -- where no type is in force the argument is untyped
    have huntyped : ArgType.untyped = type := by
      simpa [inForce, Signature.get?, hlt, hforce] using h
    rw [← huntyped] at hconcrete
    cases hconcrete

/-- **To agree with the types in force is to agree with each signature before**, provided that these
agree among themselves. -/
theorem agrees_inForce_iff (h : (main :: earlier).Pairwise Agrees) :
    (inForce main earlier).Agrees found ↔ ∀ s ∈ main :: earlier, s.Agrees found := by
  constructor
  · rintro ⟨hsize, hagree⟩ s hs
    have hmain : s.size = main.size := (agrees_of_pairwise h hs List.mem_cons_self).1
    refine ⟨by rw [hmain, ← hsize, size_inForce], ?_⟩
    intro index type type' hget hfound hconcrete hconcrete'
    have hlt : index < main.size := hmain ▸ (List.getElem?_eq_some_iff.mp hget).1
    have hforce := get?_inForce (typeInForce?_of_mem h hs hget hconcrete) hlt
    exact hagree index type type' hforce hfound hconcrete hconcrete'
  · intro hall
    refine ⟨(size_inForce main earlier).trans (hall main List.mem_cons_self).1, ?_⟩
    intro index type type' hget hfound hconcrete hconcrete'
    obtain ⟨s, hs, hs'⟩ := exists_mem_of_typeInForce? (typeInForce?_of_get?_inForce hget hconcrete)
    exact (hall s hs).2 index type type' hs' hfound hconcrete hconcrete'

/-! ## Section 3: Walks without problems -/

/-- The signature of a template, if it is there and has one. -/
def signatureOf? (template : Option Text) : Option Signature :=
  template.bind fun template => (Template.parseSignature template).toOption

/-- A template without a signature is a problem in itself. -/
theorem checkLocale_of_none {template : Option Text} (h : signatureOf? template = none)
    (inForce : Option Signature) : (checkLocale key inForce tag template).2 ≠ [] := by
  cases template with
  | none => simp [checkLocale]
  | some template =>
    cases hparse : Template.parseSignature template with
    | error e => simp [checkLocale, readSignature, hparse]
    | ok found => simp [signatureOf?, hparse, Except.toOption] at h

variable (key tag) in
/-- **One step of the walk**: a signature is a problem unless it agrees with the types in force. -/
theorem checkLocale_of_some {template : Option Text} (h : signatureOf? template = some found)
    (main : Signature) (earlier : List Signature) :
    (checkLocale key (some (inForce main earlier)) tag template).1 =
        some (inForce main (earlier ++ [found])) ∧
      ((checkLocale key (some (inForce main earlier)) tag template).2 = [] ↔
        (inForce main earlier).Agrees found) := by
  obtain ⟨template, rfl, hparse⟩ := Option.bind_eq_some_iff.mp h
  have hread : Template.parseSignature template = .ok found := by
    cases hread : Template.parseSignature template with
    | error e => simp [hread, Except.toOption] at hparse
    | ok found' =>
      rw [hread] at hparse
      exact congrArg Except.ok (Option.some.inj hparse)
  simp only [checkLocale, readSignature, hread, compareSignatures_inForce, true_and]
  rw [agrees_iff_typeMismatches_eq_nil key tag, size_inForce]
  by_cases hsize : found.size = main.size
  · simp [hsize]
  · simp [hsize]

variable (key) in
/-- **A walk finds no problem** exactly when every template has a signature and all signatures agree,
those from before the walk among them. -/
theorem checkLocales_eq_nil_iff (others : List (LocaleTag × Option Text))
    (h : (main :: earlier).Pairwise Agrees) :
    (checkLocales key (some (inForce main earlier)) others).2 = [] ↔
      (∀ other ∈ others, (signatureOf? other.2).isSome = true) ∧
        (main :: earlier ++ others.filterMap fun other => signatureOf? other.2).Pairwise Agrees := by
  -- the signatures walked over join those from before, and still agree
  induction others generalizing earlier with
  | nil => simpa [checkLocales] using List.pairwise_cons.mp h
  | cons other others ih =>
    obtain ⟨tag, template⟩ := other
    simp only [checkLocales, List.append_eq_nil_iff, List.forall_mem_cons]
    cases hsignature : signatureOf? template with
    | none => simp [checkLocale_of_none hsignature]
    | some found =>
      obtain ⟨hsettled, hproblems⟩ := checkLocale_of_some key tag hsignature main earlier
      have hsplit : main :: earlier ++
          ((tag, template) :: others).filterMap (fun other => signatureOf? other.2) =
          main :: (earlier ++ [found]) ++ others.filterMap fun other => signatureOf? other.2 := by
        simp [hsignature]
      rw [hsettled, hproblems, hsplit]
      constructor
      · rintro ⟨hagrees, hrest⟩
        have hnext : (main :: (earlier ++ [found])).Pairwise Agrees := by
          rw [← List.cons_append, List.pairwise_append]
          refine ⟨h, List.pairwise_singleton _ _, ?_⟩
          intro s hs t ht
          obtain rfl := List.mem_singleton.mp ht
          exact (agrees_inForce_iff h).mp hagrees s hs
        obtain ⟨hsome, hpairwise⟩ := (ih hnext).mp hrest
        exact ⟨⟨rfl, hsome⟩, hpairwise⟩
      · rintro ⟨⟨_, hsome⟩, hpairwise⟩
        have hnext := (List.pairwise_append.mp hpairwise).1
        refine ⟨(agrees_inForce_iff h).mpr ?_, (ih hnext).mpr ⟨hsome, hpairwise⟩⟩
        intro s hs
        rw [← List.cons_append, List.pairwise_append] at hnext
        exact hnext.2.2 s hs found List.mem_cons_self

/-- **A key has no problem** exactly when its templates all have signatures and these agree. The main
template is one among them. -/
theorem checkKey_eq_nil_iff (main : LocaleTag) (template : Text)
    (others : List (LocaleTag × Option Text)) :
    (checkKey key main template others).2 = [] ↔
      (∀ other ∈ (main, some template) :: others, (signatureOf? other.2).isSome = true) ∧
        (((main, some template) :: others).filterMap fun other => signatureOf? other.2).Pairwise
          Agrees := by
  cases hparse : Template.parseSignature template with
  | error e =>
    have hnone : signatureOf? (some template) = none := by simp [signatureOf?, hparse, Except.toOption]
    simp [checkKey, readSignature, hparse, hnone]
  | ok found =>
    have hsome : signatureOf? (some template) = some found := by
      simp [signatureOf?, hparse, Except.toOption]
    have hwalk := checkLocales_eq_nil_iff key others (List.pairwise_singleton Agrees found)
    rw [inForce_nil] at hwalk
    simp only [checkKey, readSignature, hparse, List.nil_append, hwalk, List.forall_mem_cons, hsome,
      Option.isSome_some, true_and, List.singleton_append, List.filterMap_cons]

/-- The order in which the locales are walked over does not matter. -/
theorem checkKey_eq_nil_of_perm {main : LocaleTag} {template : Text}
    {others others' : List (LocaleTag × Option Text)} (h : others.Perm others')
    (hclean : (checkKey key main template others).2 = []) :
    (checkKey key main template others').2 = [] := by
  rw [checkKey_eq_nil_iff] at hclean ⊢
  have hperm := h.cons (main, some template)
  refine ⟨fun other hother => hclean.1 other (hperm.mem_iff.mpr hother), ?_⟩
  have hsignatures := hperm.filterMap fun other => signatureOf? other.2
  exact (hsignatures.pairwise_iff Agrees.symm).mp hclean.2

/-! ## Section 4: Bundles -/

/-- **A consistent bundle.** Its locales have the same keys, every template has a signature, and the
signatures of a key agree in any two locales. No order of the locales enters into this. -/
structure Consistent (b : Bundle) (maps : Table LocaleTag LocaleMessages) : Prop where
  sameKeys : ∀ tag ∈ b.secondaryLocales, ∀ key,
    key ∈ keysIn maps tag ↔ key ∈ keysIn maps b.mainLocale
  readable : ∀ key ∈ keysIn maps b.mainLocale, ∀ tag ∈ b.locales,
    (signatureIn? maps key tag).isSome = true
  agree : ∀ key, ∀ tag ∈ b.locales, ∀ tag' ∈ b.locales, ∀ s s',
    signatureIn? maps key tag = some s → signatureIn? maps key tag' = some s' → s.Agrees s'

/-- A tracked locale gives a concrete type to an argument of a message. -/
def Declares (b : Bundle) (maps : Table LocaleTag LocaleMessages) (key : Text) (index : Nat)
    (type : ArgType) : Prop :=
  ∃ tag ∈ b.locales, ∃ s, signatureIn? maps key tag = some s ∧ s.get? index = some type ∧
    type.isConcrete = true

/-- **The common signature of the locales**: it has as many arguments as the signature in each
locale, an argument has the type that any locale gives to it, and is untyped if none gives one. -/
structure IsCommon (b : Bundle) (maps : Table LocaleTag LocaleMessages) (key : Text)
    (s : Signature) : Prop where
  size : ∀ tag ∈ b.locales, ∀ found, signatureIn? maps key tag = some found → found.size = s.size
  declared : ∀ index type, Declares b maps key index type → s.get? index = some type
  untyped : ∀ index < s.size, (∀ type, ¬Declares b maps key index type) →
    s.get? index = some .untyped

/-- The templates of a key in all tracked locales, the main one first. -/
def templatesIn (b : Bundle) (maps : Table LocaleTag LocaleMessages) (key : Text) :
    List (LocaleTag × Option Text) :=
  (b.mainLocale :: b.secondaryLocales).map fun tag => (tag, templateIn maps key tag)

theorem mem_main_secondary_iff : tag ∈ b.mainLocale :: b.secondaryLocales ↔ tag ∈ b.locales := by
  rw [List.mem_cons, mem_secondaryLocales_iff]
  constructor
  · rintro (rfl | h)
    · exact b.main_mem
    · exact h.1
  · intro h
    by_cases hmain : tag = b.mainLocale
    · exact .inl hmain
    · exact .inr ⟨h, hmain⟩

/-- The signatures of a key in all tracked locales, the main one first. -/
def signaturesIn (b : Bundle) (maps : Table LocaleTag LocaleMessages) (key : Text) :
    List Signature :=
  (b.mainLocale :: b.secondaryLocales).filterMap (signatureIn? maps key)

/-- They agree in pairs when any two locales agree. -/
theorem pairwise_signaturesIn_iff :
    (signaturesIn b maps key).Pairwise Agrees ↔
      ∀ tag ∈ b.locales, ∀ tag' ∈ b.locales, ∀ s s',
        signatureIn? maps key tag = some s → signatureIn? maps key tag' = some s' →
          s.Agrees s' := by
  constructor
  · intro h tag htag tag' htag' s s' hs hs'
    apply agrees_of_pairwise h
    · exact List.mem_filterMap.mpr ⟨tag, mem_main_secondary_iff.mpr htag, hs⟩
    · exact List.mem_filterMap.mpr ⟨tag', mem_main_secondary_iff.mpr htag', hs'⟩
  · intro h
    apply List.pairwise_of_forall_mem_list
    intro s hs s' hs'
    obtain ⟨tag, htag, hs⟩ := List.mem_filterMap.mp hs
    obtain ⟨tag', htag', hs'⟩ := List.mem_filterMap.mp hs'
    exact h tag (mem_main_secondary_iff.mp htag) tag' (mem_main_secondary_iff.mp htag') s s' hs hs'

/-- A key of the main locale has no problem when its templates have signatures that agree. -/
theorem checkKey_templatesIn_eq_nil_iff {template : Text}
    (h : templateIn maps key b.mainLocale = some template) :
    (checkKey key b.mainLocale template
        (b.secondaryLocales.map fun tag => (tag, templateIn maps key tag))).2 = [] ↔
      (∀ tag ∈ b.locales, (signatureIn? maps key tag).isSome = true) ∧
        (signaturesIn b maps key).Pairwise Agrees := by
  have hall : (b.mainLocale, some template) ::
      b.secondaryLocales.map (fun tag => (tag, templateIn maps key tag)) =
        templatesIn b maps key := by
    rw [templatesIn, List.map_cons, h]
  rw [checkKey_eq_nil_iff, hall, templatesIn, List.forall_mem_map, List.filterMap_map]
  apply and_congr_left'
  exact forall_congr' fun tag => imp_congr_left mem_main_secondary_iff

/-- A locale has no extra key when the main locale has all its keys. -/
theorem extraKeys_eq_nil_iff :
    extraKeys b.mainLocale (mainMessages b maps) maps tag = [] ↔
      ∀ key ∈ keysIn maps tag, key ∈ keysIn maps b.mainLocale := by
  have hmain : ∀ key, (mainMessages b maps).contains key = true ↔
      key ∈ keysIn maps b.mainLocale := by
    intro key
    rw [mem_keysIn_iff, ← get?_mainMessages]
    rfl
  unfold extraKeys keysIn
  cases maps.get? tag with
  | none => simp
  | some m =>
    simp only [List.map_eq_nil_iff, List.filter_eq_nil_iff, Bool.not_eq_true, Bool.not_eq_false']
    exact forall_congr' fun key => imp_congr_right fun _ => hmain key

/-- A bundle is clean when no walk finds a problem and no locale has an extra key. -/
theorem isClean_iff_forall :
    (b.validate maps).isClean = true ↔
      (∀ key ∈ keysIn maps b.mainLocale,
        (∀ tag ∈ b.locales, (signatureIn? maps key tag).isSome = true) ∧
          (signaturesIn b maps key).Pairwise Agrees) ∧
      ∀ tag ∈ b.secondaryLocales, ∀ key ∈ keysIn maps tag, key ∈ keysIn maps b.mainLocale := by
  have hsorted : (b.validate maps).isClean = true ↔ foundErrors b maps = [] := by
    rw [MessageSpecs.isClean, List.isEmpty_iff]
    exact ⟨fun h => List.Perm.nil_eq (h ▸ perm_errors (foundErrors b maps)) |>.symm,
      fun h => List.perm_nil.mp (h ▸ perm_errors (foundErrors b maps))⟩
  rw [hsorted, foundErrors, List.append_eq_nil_iff, List.flatMap_eq_nil_iff,
    List.flatMap_eq_nil_iff]
  refine and_congr ?_ (forall_congr' fun tag => imp_congr_right fun _ => extraKeys_eq_nil_iff)
  simp only [checkKeys, List.forall_mem_map]
  constructor
  · intro h key hkey
    obtain ⟨template, htemplate⟩ := Option.isSome_iff_exists.mp (mem_keysIn_iff.mp hkey)
    have hentry : (key, template) ∈ (mainMessages b maps).entries :=
      Table.get?_eq_some_iff.mp ((get?_mainMessages b maps key).trans htemplate)
    exact (checkKey_templatesIn_eq_nil_iff htemplate).mp (h _ hentry)
  · rintro h ⟨key, template⟩ hentry
    have htemplate : templateIn maps key b.mainLocale = some template :=
      (get?_mainMessages b maps key).symm.trans (Table.get?_of_mem hentry)
    have hkey : key ∈ keysIn maps b.mainLocale := mem_keysIn_iff.mpr (by rw [htemplate]; rfl)
    exact (checkKey_templatesIn_eq_nil_iff htemplate).mpr (h key hkey)

/-- A key with a signature in a locale is one of its keys. -/
theorem mem_keysIn_of_signatureIn? {s : Signature} (h : signatureIn? maps key tag = some s) :
    key ∈ keysIn maps tag := by
  obtain ⟨template, htemplate, _⟩ := Option.bind_eq_some_iff.mp h
  exact mem_keysIn_iff.mpr (by rw [htemplate]; rfl)

theorem isClean_iff : (b.validate maps).isClean = true ↔ Consistent b maps := by
  rw [isClean_iff_forall]
  constructor
  · rintro ⟨hkeys, hextra⟩
    refine ⟨?_, fun key hkey => (hkeys key hkey).1, ?_⟩
    · intro tag htag key
      refine ⟨hextra tag htag key, ?_⟩
      intro hkey
      have hsome := (hkeys key hkey).1 tag (mem_secondaryLocales_iff.mp htag).1
      obtain ⟨s, hs⟩ := Option.isSome_iff_exists.mp hsome
      exact mem_keysIn_of_signatureIn? hs
    · intro key tag htag tag' htag' s s' hs hs'
      -- a key that some locale has a signature for is a key of the main locale
      have hkey : key ∈ keysIn maps b.mainLocale := by
        by_cases hmain : tag = b.mainLocale
        · exact hmain ▸ mem_keysIn_of_signatureIn? hs
        · have hsecondary := mem_secondaryLocales_iff.mpr ⟨htag, hmain⟩
          exact hextra tag hsecondary key (mem_keysIn_of_signatureIn? hs)
      exact pairwise_signaturesIn_iff.mp (hkeys key hkey).2 tag htag tag' htag' s s' hs hs'
  · rintro ⟨hsame, hreadable, hagree⟩
    refine ⟨fun key hkey => ⟨hreadable key hkey, ?_⟩, fun tag htag key => (hsame tag htag key).mp⟩
    exact pairwise_signaturesIn_iff.mpr (hagree key)

/-- Which of the locales is the main one does not matter either. -/
theorem Consistent.of_same_locales {other : Bundle} (h : Consistent b maps)
    (hlocales : ∀ tag, tag ∈ other.locales ↔ tag ∈ b.locales) : Consistent other maps := by
  have hkeys : ∀ tag ∈ b.locales, ∀ key, key ∈ keysIn maps tag ↔ key ∈ keysIn maps b.mainLocale := by
    intro tag htag key
    by_cases hmain : tag = b.mainLocale
    · rw [hmain]
    · exact h.sameKeys tag (mem_secondaryLocales_iff.mpr ⟨htag, hmain⟩) key
  have hmain := hkeys other.mainLocale ((hlocales _).mp other.main_mem)
  refine ⟨?_, ?_, ?_⟩
  · intro tag htag key
    have htracked := (hlocales tag).mp (mem_secondaryLocales_iff.mp htag).1
    exact (hkeys tag htracked key).trans (hmain key).symm
  · intro key hkey tag htag
    exact h.readable key ((hmain key).mp hkey) tag ((hlocales tag).mp htag)
  · intro key tag htag tag' htag'
    exact h.agree key tag ((hlocales tag).mp htag) tag' ((hlocales tag').mp htag')

/-- The final signature of a key in a consistent bundle is the common one. -/
theorem exists_isCommon (h : Consistent b maps) (hkey : key ∈ keysIn maps b.mainLocale) :
    ∃ s, finalSignature? b maps key = some s ∧ IsCommon b maps key s := by
  obtain ⟨main, hmain⟩ := Option.isSome_iff_exists.mp (h.readable key hkey _ b.main_mem)
  have hall : signaturesIn b maps key =
      main :: b.secondaryLocales.filterMap (signatureIn? maps key) :=
    List.filterMap_cons_some hmain
  have hpairwise := pairwise_signaturesIn_iff.mpr (h.agree key)
  rw [hall] at hpairwise
  -- a locale gives a type exactly when one of these signatures does
  have hmem : ∀ s, s ∈ main :: b.secondaryLocales.filterMap (signatureIn? maps key) ↔
      ∃ tag ∈ b.locales, signatureIn? maps key tag = some s := by
    intro s
    rw [← hall, signaturesIn, List.mem_filterMap]
    exact exists_congr fun tag => and_congr_left' mem_main_secondary_iff
  refine ⟨_, by rw [finalSignature?, hmain]; rfl, ?_, ?_, ?_⟩
  · intro tag htag found hfound
    rw [size_inForce]
    exact (agrees_of_pairwise hpairwise ((hmem found).mpr ⟨tag, htag, hfound⟩) List.mem_cons_self).1
  · rintro index type ⟨tag, htag, s, hs, hget, hconcrete⟩
    have hs' := (hmem s).mpr ⟨tag, htag, hs⟩
    have hlt : index < main.size := by
      rw [← (agrees_of_pairwise hpairwise hs' List.mem_cons_self).1]
      exact (List.getElem?_eq_some_iff.mp hget).1
    exact get?_inForce (typeInForce?_of_mem hpairwise hs' hget hconcrete) hlt
  · intro index hlt hnone
    rw [size_inForce] at hlt
    cases hforce : typeInForce? main (b.secondaryLocales.filterMap (signatureIn? maps key)) index with
    | none => simp [inForce, Signature.get?, hlt, hforce]
    | some type =>
      -- a type in force has been declared by some locale
      obtain ⟨s, hs, hget⟩ := exists_mem_of_typeInForce? hforce
      obtain ⟨tag, htag, hs⟩ := (hmem s).mp hs
      exact absurd ⟨tag, htag, s, hs, hget, isConcrete_of_typeInForce? hforce⟩ (hnone type)

/-- **Whether a bundle is clean does not depend on the order of its locales.** It is clean exactly
when its locales agree; neither another order of the walk nor another main locale changes that. The
signatures of a clean bundle are the common ones of its locales. -/
theorem isClean_iff_consistent (b : Bundle) (maps : Table LocaleTag LocaleMessages) :
    ((b.validate maps).isClean = true ↔ Consistent b maps) ∧
      (∀ key template (order : List LocaleTag), order.Perm b.secondaryLocales →
        ((checkKey key b.mainLocale template
            (order.map fun tag => (tag, templateIn maps key tag))).2 = [] ↔
          (checkKey key b.mainLocale template
            (b.secondaryLocales.map fun tag => (tag, templateIn maps key tag))).2 = [])) ∧
      (∀ other : Bundle, (∀ tag, tag ∈ other.locales ↔ tag ∈ b.locales) →
        (other.validate maps).isClean = (b.validate maps).isClean) ∧
      ((b.validate maps).isClean = true → ∀ key ∈ keysIn maps b.mainLocale,
        ∃ s, (b.validate maps).signature? key = some s ∧ IsCommon b maps key s) := by
  refine ⟨isClean_iff, ?_, ?_, ?_⟩
  · intro key template order horder
    have hperm := horder.map fun tag => (tag, templateIn maps key tag)
    exact ⟨checkKey_eq_nil_of_perm hperm, checkKey_eq_nil_of_perm hperm.symm⟩
  · intro other hlocales
    rw [Bool.eq_iff_iff, isClean_iff, isClean_iff]
    exact ⟨fun h => h.of_same_locales fun tag => (hlocales tag).symm,
      fun h => h.of_same_locales hlocales⟩
  · intro hclean key hkey
    rw [signature?_eq]
    exact exists_isCommon (isClean_iff.mp hclean) hkey

/-- Two locales settle what the main one leaves open. If they name different types, the bundle is
not clean, although neither contradicts the main locale. -/
theorem isClean_iff_consistent_open :
    let de : LocaleTag := ⟨"de".toList, none, none, []⟩
    let en : LocaleTag := ⟨"en".toList, none, none, []⟩
    let fr : LocaleTag := ⟨"fr".toList, none, none, []⟩
    let b : Bundle :=
      ⟨"m".toList, [], en, [de, en, fr], [], .lastRootWins, by unfold Ordered.Ascending; decide,
        by decide⟩
    let maps (german : String) : Table LocaleTag LocaleMessages := Table.ofList
      [(de, .ofList de [("k".toList, german.toList)]),
        (en, .ofList en [("k".toList, "\x7b0\x7d and \x7b1\x7d".toList)]),
        (fr, .ofList fr [("k".toList, "\x7b1\x7d et \x7b0,number\x7d".toList)])]
    let agreeing := maps "\x7b0,number,integer\x7d und \x7b1\x7d"
    let differing := maps "\x7b0,date\x7d und \x7b1\x7d"
    Consistent b agreeing ∧
      (∃ s, (b.validate agreeing).signature? "k".toList = some s ∧
        IsCommon b agreeing "k".toList s ∧ s = ⟨[.number, .untyped]⟩) ∧
      ¬Consistent b differing := by
  intro de en fr b maps agreeing differing
  have hclean : (b.validate agreeing).isClean = true := by decide +kernel
  have hunclean : (b.validate differing).isClean = false := by decide +kernel
  have hsignature : (b.validate agreeing).signature? "k".toList = some ⟨[.number, .untyped]⟩ := by
    decide +kernel
  have hkey : "k".toList ∈ keysIn agreeing en := by decide +kernel
  obtain ⟨hiff, _, _, hcommon⟩ := isClean_iff_consistent b agreeing
  obtain ⟨s, hs, hs'⟩ := hcommon hclean _ hkey
  refine ⟨hiff.mp hclean, ⟨s, hs, hs', Option.some.inj (hs.symm.trans hsignature)⟩, ?_⟩
  intro hconsistent
  rw [(isClean_iff_consistent b differing).1.mpr hconsistent] at hunclean
  cases hunclean

end Validation

end MessageCatalog
