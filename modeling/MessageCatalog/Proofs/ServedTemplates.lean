import MessageCatalog.Accessor.Call
import MessageCatalog.Proofs.AccessorSelection
import MessageCatalog.Proofs.BundleDefinitions
import MessageCatalog.Proofs.NamedStyles
import Mathlib.Data.List.TakeWhile

/-!
# Templates that serve a locale

An accessor embeds the templates of its message by the texts of their tags, and looks for the one
that serves a requested locale by comparing texts and first subtags. A validation decides which
locales are embedded, and planning keeps them in tag order. Together the three give every locale a
template: its own, or that of the smallest tag of its language, or that of the main locale.

## Main statements

* `neverLacks_read` : reading along a template never fails for want of one
* `languageOf_text` : the first subtag of a tag's text is its language
* `embeds_of_mem_planAll` : the templates that an accessor embeds
* `hasTemplate_of_build` : every accessor of a bundle that is built has a template for every locale
* `exists_template_of_planAll` : every accessor has one where the languages of tags are plain
-/

namespace MessageCatalog

/-! ## Section 1: Failures of reading -/

/-- Whether a failure is the want of a template. -/
def FormatError.isLack : FormatError → Bool
  | .noTemplate _ => true
  | _ => false

/-- A run that does not fail for want of a template. -/
def NeverLacks {α : Type} (x : Except FormatError α) : Prop :=
  ∀ e, x = .error e → e.isLack = false

section NeverLacks

variable {α β : Type} {x : Except FormatError α}

theorem neverLacks_ok (a : α) : NeverLacks (.ok a : Except FormatError α) := by
  intro e h
  cases h

theorem neverLacks_error {e : FormatError} (h : e.isLack = false) :
    NeverLacks (.error e : Except FormatError α) := by
  intro e' he
  cases he
  exact h

theorem NeverLacks.ite {c : Prop} [Decidable c] {y : Except FormatError α} (hx : NeverLacks x)
    (hy : NeverLacks y) : NeverLacks (if c then x else y) := by
  split
  · exact hx
  · exact hy

theorem NeverLacks.bind {f : α → Except FormatError β} (hx : NeverLacks x)
    (hf : ∀ a, NeverLacks (f a)) : NeverLacks (x >>= f) := by
  cases x with
  | ok a => exact hf a
  | error e => exact neverLacks_error (hx e rfl)

theorem NeverLacks.map {f : α → β} (hx : NeverLacks x) : NeverLacks (x.map f) := by
  cases x with
  | ok a => exact neverLacks_ok (f a)
  | error e => exact neverLacks_error (hx e rfl)

end NeverLacks

theorem Number.neverLacks_parse (text : Text) (style : NumberStyle) (symbols : Symbols) :
    NeverLacks (Number.parse text style symbols) := by
  simp only [Number.parse]
  exact .ite (neverLacks_ok _) <| .ite (neverLacks_ok _) <| .ite (neverLacks_ok _) <|
    neverLacks_error rfl

namespace DatePattern

variable (currentYear : Int) (names : CalendarNames) (source text : Text)

theorem neverLacks_takeChar (c : Char) (rest : Text) : NeverLacks (takeChar text c rest) := by
  unfold takeChar
  split
  · exact .ite (neverLacks_ok _) (neverLacks_error rfl)
  · exact neverLacks_error rfl

theorem neverLacks_takeNumber (width : Option Nat) (rest : Text) :
    NeverLacks (takeNumber text width rest) := by
  simp only [takeNumber]
  exact .ite (neverLacks_error rfl) (.ite (neverLacks_ok _) (neverLacks_error rfl))

theorem neverLacks_takeName (list : List Text) (rest : Text) :
    NeverLacks (takeName text list rest) := by
  unfold takeName
  split
  · exact neverLacks_ok _
  · exact neverLacks_error rfl

theorem neverLacks_readToken (token : DateToken) (state : DateReading × Text) :
    NeverLacks (readToken currentYear names source text token state) := by
  obtain ⟨r, rest⟩ := state
  cases token with
  | literal c => exact (neverLacks_takeChar text c rest).map
  | field field count abuts =>
    simp only [readToken]
    split
    · exact (neverLacks_takeName text _ rest).map
    · exact (neverLacks_takeNumber text _ rest).map
  | unknown letter => exact neverLacks_error rfl

theorem neverLacks_readTokens (tokens : List DateToken) (state : DateReading × Text) :
    NeverLacks (readTokens currentYear names source text tokens state) := by
  induction tokens generalizing state with
  | nil => exact neverLacks_ok state
  | cons token tokens ih =>
    have hstep := neverLacks_readToken currentYear names source text token state
    unfold readTokens
    cases h : readToken currentYear names source text token state with
    | ok state => exact ih state
    | error e => exact neverLacks_error (hstep e h)

theorem neverLacks_read (p : DatePattern) : NeverLacks (p.read currentYear names text) := by
  refine (neverLacks_readTokens currentYear names p.source text p.tokens _).bind ?_
  rintro ⟨r, rest⟩
  refine .ite (neverLacks_error rfl) (.ite (neverLacks_error rfl) ?_)
  split
  · exact neverLacks_ok _
  · exact neverLacks_error rfl

end DatePattern

namespace Message

variable {setting : Setting} {text : Text} {bound : Nat}
  {nested : (template : Text) → template.length < bound → (text : Text) →
    Except FormatError (List Argument)}

theorem neverLacks_store (args : List Argument) (index : Nat) (value : Argument) :
    NeverLacks (store text args index value) := by
  unfold store
  split
  · exact neverLacks_ok _
  · exact neverLacks_error rfl

theorem neverLacks_mergeAlternative (index position : Nat) (value : Argument)
    (found args : List Argument) :
    NeverLacks (mergeAlternative text index position value found args) := by
  induction found generalizing position value args with
  | nil => exact neverLacks_ok _
  | cons arg rest ih =>
    cases arg with
    | missing => exact ih _ _ _
    | number n =>
      exact .ite (ih _ _ _) ((neverLacks_store args position _).bind fun args => ih _ _ args)
    | text t => exact (neverLacks_store args position _).bind fun args => ih _ _ args
    | date d => exact (neverLacks_store args position _).bind fun args => ih _ _ args

/-- A choice does not pass on why its alternatives do not fit. -/
theorem neverLacks_readChoice (captured : Text) (index : Nat) (args : List Argument)
    (alternatives : List Alternative) (h : ∀ a ∈ alternatives, a.text.length < bound) :
    NeverLacks (readChoice text captured index bound nested args alternatives h) := by
  induction alternatives with
  | nil => exact neverLacks_error rfl
  | cons a rest ih =>
    unfold readChoice
    split
    · exact ih _
    · rename_i found _
      exact (neverLacks_mergeAlternative index 0 _ found args).bind fun (value, args) =>
        neverLacks_store args index value

theorem neverLacks_readPlaceholder (p : Placeholder) (hp : (choicePattern p).length ≤ bound)
    (captured : Text) (args : List Argument) :
    NeverLacks (readPlaceholder setting text bound nested p hp captured args) := by
  unfold readPlaceholder
  split
  · exact neverLacks_store args _ _
  · rename_i style _
    have hstyle : NeverLacks (NumberStyle.parse style) := by
      intro e he
      obtain ⟨_, rfl⟩ := NumberStyle.parse_error he
      rfl
    exact hstyle.bind fun style => (Number.neverLacks_parse _ _ _).bind fun n =>
      neverLacks_store args _ _
  · exact (DatePattern.neverLacks_read _ _ _ _).bind fun d => neverLacks_store args _ _
  · exact (DatePattern.neverLacks_read _ _ _ _).bind fun d => neverLacks_store args _ _
  · split
    · rename_i e he
      unfold Choice.parse at he
      split at he
      · cases he
      · cases he
        exact neverLacks_error rfl
    · exact neverLacks_readChoice _ _ _ _ _

theorem neverLacks_capture (p : Placeholder) (rest : Text) (segments : List Segment) :
    NeverLacks (capture text p rest segments) := by
  unfold capture
  split
  · exact neverLacks_ok _
  · split
    · exact neverLacks_ok _
    · exact neverLacks_error rfl
  · split
    · exact neverLacks_ok _
    · exact neverLacks_error rfl
  · exact neverLacks_error rfl

theorem neverLacks_readSegments (segments : List Segment)
    (h : ∀ p ∈ Segment.placeholders segments, (choicePattern p).length ≤ bound) (rest : Text)
    (args : List Argument) :
    NeverLacks (readSegments setting text bound nested segments h rest args) := by
  induction segments generalizing rest args with
  | nil =>
    exact .ite (neverLacks_ok args) (neverLacks_error rfl)
  | cons segment segments ih =>
    cases segment with
    | literal t =>
      unfold readSegments
      split
      · exact ih _ _ _
      · exact neverLacks_error rfl
    | placeholder p =>
      exact (neverLacks_capture p rest segments).bind fun (captured, rest) =>
        (neverLacks_readPlaceholder p _ captured args).bind fun args => ih _ rest args

/-- **Reading along a template never fails for want of one.** -/
theorem neverLacks_read (setting : Setting) (template text : Text) :
    NeverLacks (read setting template text) := by
  cases hparse : Template.parse template with
  | error e =>
    unfold read
    split
    · exact neverLacks_error rfl
    · rename_i h
      cases hparse.symm.trans h
  | ok t =>
    rw [read_of_parse hparse]
    exact neverLacks_readSegments _ _ _ _

end Message

/-! ## Section 2: Languages of tags -/

namespace LocaleTag

/-- A tag whose language has no hyphen in it, as that of every tag that is read from a text. -/
def HasPlainLanguage (tag : LocaleTag) : Prop := '-' ∉ tag.language

theorem text_eq_or (tag : LocaleTag) :
    tag.text = tag.language ∨ ∃ rest, tag.text = tag.language ++ '-' :: rest := by
  obtain ⟨others, hothers⟩ : ∃ others, tag.text = ['-'].intercalate (tag.language :: others) :=
    ⟨tag.script.toList ++ tag.region.toList ++ tag.variants, by simp [text, Text.join]⟩
  rw [hothers]
  cases others with
  | nil => exact .inl (by simp)
  | cons first others => exact .inr ⟨['-'].intercalate (first :: others), by simp⟩

/-- The first subtag of the text of a tag is its language. -/
theorem languageOf_text {tag : LocaleTag} (h : tag.HasPlainLanguage) :
    Translations.languageOf tag.text = tag.language := by
  have hplain : ∀ c ∈ tag.language, (c != '-') = true := fun c hc =>
    bne_iff_ne.mpr fun heq => h (heq ▸ hc)
  rcases tag.text_eq_or with htext | ⟨rest, htext⟩
  · rw [htext]
    exact List.takeWhile_eq_self_iff.mpr hplain
  · rw [htext, Translations.languageOf, List.takeWhile_append_of_pos hplain]
    simp

/-- The language of a tag that was read consists of letters. -/
theorem Canonical.hasPlainLanguage {tag : LocaleTag} (h : tag.Canonical) :
    tag.HasPlainLanguage := fun hmem =>
  absurd (List.all_eq_true.mp h.language_letters.2 '-' hmem) (by decide)

end LocaleTag

/-- The tracked locales of every bundle that is built have plain languages. -/
theorem BundleDefinition.hasPlainLanguage_of_build {d : BundleDefinition} {b : Bundle}
    (h : d.build = .ok b) : ∀ tag ∈ b.locales, tag.HasPlainLanguage := fun tag htag =>
  (canonical_of_build h tag htag).hasPlainLanguage

/-! ## Section 3: The first template -/

namespace Translations

/-- Of templates in tag order the first one is that of the smallest tag. -/
theorem firstTemplate?_eq_some {templates : List (Text × Text)} {served : Text → Bool}
    {tag template : Text} (hascending : templates.Pairwise fun a b => compare a.1 b.1 = .lt)
    (hmem : (tag, template) ∈ templates) (hserved : served tag = true)
    (hfirst : ∀ e ∈ templates, served e.1 = true → (compare tag e.1).isLE = true) :
    firstTemplate? templates served = some template := by
  obtain ⟨before, after, rfl⟩ := List.append_of_mem hmem
  have hbefore : ∀ e ∈ before, served e.1 = false := by
    intro e he
    by_contra hserved'
    have hle := hfirst e (List.mem_append_left _ he) (by simpa using hserved')
    have hlt : compare e.1 tag = .lt :=
      (List.pairwise_append.mp hascending).2.2 e he _ List.mem_cons_self
    rw [Std.OrientedCmp.gt_of_lt hlt] at hle
    cases hle
  rw [firstTemplate?, List.find?_append, List.find?_eq_none.mpr fun e he => by simp [hbefore e he]]
  simp [hserved]

theorem firstTemplate?_eq_none {templates : List (Text × Text)} {served : Text → Bool}
    (h : ∀ e ∈ templates, served e.1 = false) : firstTemplate? templates served = none := by
  rw [firstTemplate?, List.find?_eq_none.mpr fun e he => by simp [h e he], Option.map_none]

end Translations

/-! ## Section 4: Embedded templates -/

namespace Validation

variable {b : Bundle} {maps : Table LocaleTag LocaleMessages} {key : Text}
  {requested tag : LocaleTag}

/-- A tracked locale that defines a key. -/
structure Defines (b : Bundle) (maps : Table LocaleTag LocaleMessages) (key : Text)
    (tag : LocaleTag) : Prop where
  tracked : tag ∈ b.locales
  template : ∃ template, templateIn maps key tag = some template

/-- **The locale whose template serves a requested one**: the requested locale itself, or else the
smallest one of its language, or else the main locale. -/
inductive Serves (b : Bundle) (maps : Table LocaleTag LocaleMessages) (key : Text)
    (requested : LocaleTag) : LocaleTag → Prop
  /-- The requested locale defines the key. -/
  | own {tag : LocaleTag} (h : Defines b maps key tag) (hown : tag.same requested = true) :
      Serves b maps key requested tag
  /-- It does not, but some locale of its language does. -/
  | language {tag : LocaleTag} (h : Defines b maps key tag)
      (hlanguage : tag.sameLanguage requested = true)
      (hown : ∀ other, Defines b maps key other → other.same requested = false)
      (hleast : ∀ other, Defines b maps key other → other.sameLanguage requested = true →
        (compare tag other).isLE = true) : Serves b maps key requested tag
  /-- No locale of its language defines the key. -/
  | main (hown : ∀ other, Defines b maps key other → other.same requested = false)
      (hlanguage : ∀ other, Defines b maps key other → other.sameLanguage requested = false) :
      Serves b maps key requested b.mainLocale

/-- Some tracked locale has the smallest tag of those that define a key in a language. -/
theorem exists_least_of_language (h : Defines b maps key tag)
    (hlanguage : tag.sameLanguage requested = true) :
    ∃ least, Defines b maps key least ∧ least.sameLanguage requested = true ∧
      ∀ other, Defines b maps key other → other.sameLanguage requested = true →
        (compare least other).isLE = true := by
  classical
  let candidates := b.locales.filter fun other =>
    decide (Defines b maps key other ∧ other.sameLanguage requested = true)
  have hmem : ∀ other, other ∈ candidates ↔
      Defines b maps key other ∧ other.sameLanguage requested = true := by
    intro other
    rw [List.mem_filter, decide_eq_true_eq]
    exact and_iff_right_of_imp fun hother => hother.1.tracked
  have hascending : Ordered.Ascending candidates := b.ascending.filter _
  cases hcandidates : candidates with
  | nil =>
    have htag : tag ∈ candidates := (hmem tag).mpr ⟨h, hlanguage⟩
    rw [hcandidates] at htag
    cases htag
  | cons least rest =>
    rw [hcandidates] at hascending hmem
    obtain ⟨hleast, hlanguage'⟩ := (hmem least).mp List.mem_cons_self
    refine ⟨least, hleast, hlanguage', ?_⟩
    intro other hother hsame
    rcases List.mem_cons.mp ((hmem other).mpr ⟨hother, hsame⟩) with rfl | hrest
    · rw [Std.compare_self]
      rfl
    · rw [(List.pairwise_cons.mp hascending).1 other hrest]
      rfl

/-- Every requested locale is served. -/
theorem exists_serves (b : Bundle) (maps : Table LocaleTag LocaleMessages) (key : Text)
    (requested : LocaleTag) : ∃ tag, Serves b maps key requested tag := by
  by_cases hown : ∃ tag, Defines b maps key tag ∧ tag.same requested = true
  · obtain ⟨tag, h, hsame⟩ := hown
    exact ⟨tag, .own h hsame⟩
  have hnone : ∀ other, Defines b maps key other → other.same requested = false := by
    intro other h
    by_contra hsame
    exact hown ⟨other, h, by simpa using hsame⟩
  by_cases hlanguage : ∃ tag, Defines b maps key tag ∧ tag.sameLanguage requested = true
  · obtain ⟨tag, h, hsame⟩ := hlanguage
    obtain ⟨least, hleast, hlanguage, hfirst⟩ := exists_least_of_language h hsame
    exact ⟨least, .language hleast hlanguage hnone hfirst⟩
  · refine ⟨b.mainLocale, .main hnone ?_⟩
    intro other h
    by_contra hsame
    exact hlanguage ⟨other, h, by simpa using hsame⟩

/-- The embedded templates of a key are those of the tracked locales that define it. -/
theorem mem_templates_iff {template found : Text}
    (h : templateIn maps key b.mainLocale = some template) :
    (tag, found) ∈ (Table.ofList (trackedTemplates b maps key template)).entries ↔
      tag ∈ b.locales ∧ templateIn maps key tag = some found := by
  rw [Table.mem_ofList_iff, mem_trackedTemplates_iff h]
  -- no two tracked locales have one text
  rintro ⟨tag, found⟩ he ⟨tag', found'⟩ he' hcompare
  obtain ⟨htag, hfound⟩ := (mem_trackedTemplates_iff h).mp he
  obtain ⟨htag', hfound'⟩ := (mem_trackedTemplates_iff h).mp he'
  obtain rfl := b.ascending.eq_of_compare htag htag' hcompare
  obtain rfl := Option.some.inj (hfound.symm.trans hfound')
  rfl

end Validation

namespace Accessor

open Validation

variable {b : Bundle} {maps : Table LocaleTag LocaleMessages} {plan : Plan} {requested : LocaleTag}

/-- What a plan embeds are the templates of its message. -/
theorem exists_spec_of_mem_planAll {specs : MessageSpecs} (h : plan ∈ (planAll specs).1) :
    ∃ spec ∈ specs.specs.values, plan.key = spec.key ∧
      plan.templates = spec.templates.entries.map fun (tag, template) => (tag.text, template) := by
  rw [planAll_eq] at h
  obtain ⟨_, candidate, _, hsplit, hclaim⟩ := mem_granted_iff.mp h
  obtain ⟨typeName, _, rfl⟩ := claimPlan_eq_ok_iff.mp hclaim
  have hmem : candidate ∈ (constantClaims specs).granted := by simp [hsplit]
  obtain ⟨_, spec, _, hspecs, hcandidate⟩ := mem_granted_iff.mp hmem
  obtain ⟨rfl, _⟩ := candidate_of_claimConstant hcandidate
  exact ⟨candidate.spec, by simp [hspecs], rfl, rfl⟩

/-- **The templates that an accessor embeds** are those of the tracked locales that define its key,
in tag order, and the main locale is one of them. -/
structure Embeds (b : Bundle) (maps : Table LocaleTag LocaleMessages) (plan : Plan) : Prop where
  main : Defines b maps plan.key b.mainLocale
  ascending : plan.templates.Pairwise fun a b => compare a.1 b.1 = .lt
  mem_iff : ∀ text template, (text, template) ∈ plan.templates ↔
    ∃ tag ∈ b.locales, tag.text = text ∧ templateIn maps plan.key tag = some template

theorem embeds_of_mem_planAll (h : plan ∈ (planAll (b.validate maps)).1) :
    Embeds b maps plan := by
  obtain ⟨spec, hspec, hkey, htemplates⟩ := exists_spec_of_mem_planAll h
  simp only [Table.values, entries_specs, List.map_map, List.mem_map] at hspec
  obtain ⟨⟨key, template⟩, hentry, rfl⟩ := hspec
  have hmain : templateIn maps plan.key b.mainLocale = some template := by
    rw [hkey, ← get?_mainMessages]
    exact Table.get?_of_mem hentry
  have hentries : plan.templates =
      (Table.ofList (trackedTemplates b maps plan.key template)).entries.map
        fun (tag, template) => (tag.text, template) := by
    rw [htemplates, hkey]
    rfl
  refine ⟨⟨b.main_mem, template, hmain⟩, ?_, ?_⟩
  · rw [hentries]
    exact List.pairwise_map.mpr (Table.ascending _)
  · intro text found
    simp only [hentries, List.mem_map, Prod.exists, Prod.mk.injEq, mem_templates_iff hmain]
    constructor
    · rintro ⟨tag, _, ⟨htag, hfound⟩, rfl, rfl⟩
      exact ⟨tag, htag, rfl, hfound⟩
    · rintro ⟨tag, htag, rfl, hfound⟩
      exact ⟨tag, found, ⟨htag, hfound⟩, rfl, rfl⟩

/-! ## Section 5: The template that serves a locale -/

/-- The template of a locale is the first one with some property, when the locale has the smallest
tag among those that define the key and have the property. -/
theorem firstTemplate?_of_least {served : Text → Bool} {tag : LocaleTag} {template : Text}
    (h : Embeds b maps plan) (htag : tag ∈ b.locales)
    (htemplate : templateIn maps plan.key tag = some template) (hserved : served tag.text = true)
    (hleast : ∀ other, Defines b maps plan.key other → served other.text = true →
      (compare tag other).isLE = true) :
    Translations.firstTemplate? plan.templates served = some template := by
  apply Translations.firstTemplate?_eq_some h.ascending
    ((h.mem_iff _ _).mpr ⟨tag, htag, rfl, htemplate⟩) hserved
  rintro ⟨text, found⟩ hmem hserved'
  obtain ⟨other, hother, rfl, hfound⟩ := (h.mem_iff _ _).mp hmem
  exact hleast other ⟨hother, found, hfound⟩ hserved'

/-- The template of a locale is the first one with the text of its tag. -/
theorem firstTemplate?_of_text {tag : LocaleTag} {text template : Text} (h : Embeds b maps plan)
    (htag : tag ∈ b.locales) (htemplate : templateIn maps plan.key tag = some template)
    (htext : tag.text = text) :
    Translations.firstTemplate? plan.templates (· == text) = some template := by
  have hserved : (fun other => other == text) tag.text = true := beq_iff_eq.mpr htext
  apply firstTemplate?_of_least h htag htemplate hserved
  intro other _ hsame
  show (compare tag.text other.text).isLE = true
  rw [htext, beq_iff_eq.mp hsame, Std.compare_self]
  rfl

/-- No template has a property that the tag of no locale that defines the key has. -/
theorem firstTemplate?_of_none {served : Text → Bool} (h : Embeds b maps plan)
    (hnone : ∀ other, Defines b maps plan.key other → served other.text = false) :
    Translations.firstTemplate? plan.templates served = none := by
  apply Translations.firstTemplate?_eq_none
  rintro ⟨text, found⟩ hmem
  obtain ⟨other, hother, rfl, hfound⟩ := (h.mem_iff _ _).mp hmem
  exact hnone other ⟨hother, found, hfound⟩

theorem resolve?_of_serves {tag : LocaleTag} {template : Text} (h : Embeds b maps plan)
    (hplain : ∀ tag ∈ b.locales, tag.HasPlainLanguage)
    (hserves : Serves b maps plan.key requested tag)
    (htemplate : templateIn maps plan.key tag = some template) :
    Translations.resolve? ⟨plan.templates, b.mainLocale.text⟩ requested = some template := by
  -- the language that is read off the text of an embedded tag is that of its locale
  have hlanguage : ∀ other, Defines b maps plan.key other →
      (Translations.languageOf other.text == requested.language) =
        other.sameLanguage requested := by
    intro other hother
    rw [LocaleTag.languageOf_text (hplain other hother.tracked)]
    rfl
  unfold Translations.resolve?
  cases hserves with
  | own hdefines hown =>
    rw [firstTemplate?_of_text h hdefines.tracked htemplate (beq_iff_eq.mp hown), Option.some_or]
  | language hdefines hsame hown hleast =>
    have hfirst : Translations.firstTemplate? plan.templates
        (fun other => Translations.languageOf other == requested.language) = some template := by
      apply firstTemplate?_of_least h hdefines.tracked htemplate
      · exact (hlanguage tag hdefines).trans hsame
      · intro other hother hserved
        exact hleast other hother ((hlanguage other hother).symm.trans hserved)
    rw [firstTemplate?_of_none h hown, Option.none_or, hfirst, Option.some_or]
  | main hown hnone =>
    have hno : Translations.firstTemplate? plan.templates
        (fun other => Translations.languageOf other == requested.language) = none :=
      firstTemplate?_of_none h fun other hother => (hlanguage other hother).trans (hnone other hother)
    rw [firstTemplate?_of_none h hown, Option.none_or, hno, Option.none_or,
      firstTemplate?_of_text h b.main_mem htemplate rfl]

/-- The locale that serves a requested one defines the key, for the main locale does. -/
theorem defines_of_serves {tag : LocaleTag} (h : Embeds b maps plan)
    (hserves : Serves b maps plan.key requested tag) : Defines b maps plan.key tag := by
  cases hserves with
  | own hdefines _ => exact hdefines
  | language hdefines _ _ _ => exact hdefines
  | main _ _ => exact h.main

/-- **A requested locale has its template**: that of the locale which serves it, as the locale itself,
the smallest one of its language, or the main locale. A message is rendered along this template, or is
the template where it cannot be formatted, and reading back never lacks a template. -/
def HasTemplate (b : Bundle) (maps : Table LocaleTag LocaleMessages) (plan : Plan)
    (requested : LocaleTag) : Prop :=
  ∃ tag template, Serves b maps plan.key requested tag ∧
    templateIn maps plan.key tag = some template ∧
    (∀ other, Serves b maps plan.key requested other →
      templateIn maps plan.key other = some template) ∧
    ∀ arguments : List Argument,
      let call : Call := ⟨plan, b.mainLocale.text, arguments⟩
      call.translations.resolve? requested = some template ∧
        (call.render requested).1 =
          (Message.format requested arguments template).toOption.getD template ∧
        ∀ year text locale, call.read ⟨requested, year⟩ text ≠ .error (.noTemplate locale)

theorem hasTemplate_of_mem_planAll (hplain : ∀ tag ∈ b.locales, tag.HasPlainLanguage)
    (hplan : plan ∈ (planAll (b.validate maps)).1) (requested : LocaleTag) :
    HasTemplate b maps plan requested := by
  have hembeds := embeds_of_mem_planAll hplan
  obtain ⟨tag, hserves⟩ := exists_serves b maps plan.key requested
  obtain ⟨template, htemplate⟩ := (defines_of_serves hembeds hserves).template
  have hresolve := resolve?_of_serves hembeds hplain hserves htemplate
  refine ⟨tag, template, hserves, htemplate, ?_, ?_⟩
  · intro other hother
    obtain ⟨template', htemplate'⟩ := (defines_of_serves hembeds hother).template
    have hresolve' := resolve?_of_serves hembeds hplain hother htemplate'
    rw [htemplate', ← hresolve', hresolve]
  · intro arguments call
    refine ⟨hresolve, ?_, ?_⟩
    · show (Translations.render ⟨plan.templates, b.mainLocale.text⟩ requested arguments).1 = _
      simp only [Translations.render, hresolve]
      cases hformat : Message.format requested arguments template with
      | ok text => rfl
      | error e => rfl
    · intro year text locale hlack
      have hread : NeverLacks (call.read ⟨requested, year⟩ text) := by
        apply NeverLacks.map
        show NeverLacks (Translations.read ⟨plan.templates, b.mainLocale.text⟩ _ text)
        rw [Translations.read, hresolve]
        exact Message.neverLacks_read _ template text
      cases hread _ hlack

/-- **Every accessor of a bundle that is built has a template for every locale.** -/
theorem hasTemplate_of_build {d : BundleDefinition} (hbuild : d.build = .ok b)
    (hplan : plan ∈ (planAll (b.validate maps)).1) (requested : LocaleTag) :
    HasTemplate b maps plan requested :=
  hasTemplate_of_mem_planAll (BundleDefinition.hasPlainLanguage_of_build hbuild) hplan requested

/-- **Every accessor has a template for every locale**: that of the locale which serves the requested
one, as the locale itself, the smallest one of its language, or the main locale. A message is
rendered along this template, or is the template where it cannot be formatted, and reading back never
lacks a template. The languages of all tracked locales are plain when the bundle has been built. -/
theorem exists_template_of_planAll (hplain : ∀ tag ∈ b.locales, tag.HasPlainLanguage)
    (hplan : plan ∈ (planAll (b.validate maps)).1) (requested : LocaleTag) :
    ∃ tag template, Serves b maps plan.key requested tag ∧
      templateIn maps plan.key tag = some template ∧
      (∀ other, Serves b maps plan.key requested other →
        templateIn maps plan.key other = some template) ∧
      ∀ arguments : List Argument,
        let call : Call := ⟨plan, b.mainLocale.text, arguments⟩
        call.translations.resolve? requested = some template ∧
          (call.render requested).1 =
            (Message.format requested arguments template).toOption.getD template ∧
          ∀ year text locale, call.read ⟨requested, year⟩ text ≠ .error (.noTemplate locale) :=
  hasTemplate_of_mem_planAll hplain hplan requested

/-- New Zealand is served by Canada, whose tag is smaller than that of the main locale, and Austria by
Germany, since it lacks the key; in French the main locale serves. -/
theorem exists_template_of_planAll_siblings :
    let deAT : LocaleTag := ⟨"de".toList, none, some "AT".toList, []⟩
    let deDE : LocaleTag := ⟨"de".toList, none, some "DE".toList, []⟩
    let enCA : LocaleTag := ⟨"en".toList, none, some "CA".toList, []⟩
    let enGB : LocaleTag := ⟨"en".toList, none, some "GB".toList, []⟩
    let enNZ : LocaleTag := ⟨"en".toList, none, some "NZ".toList, []⟩
    let fr : LocaleTag := ⟨"fr".toList, none, none, []⟩
    let b : Bundle :=
      ⟨"m".toList, [], enGB, [deAT, deDE, enCA, enGB], [], .lastRootWins,
        by unfold Ordered.Ascending; decide, by decide⟩
    let maps : Table LocaleTag LocaleMessages := Table.ofList
      [(deAT, .ofList deAT []), (deDE, .ofList deDE [("bye".toList, "Tschau".toList)]),
        (enCA, .ofList enCA [("bye".toList, "Bye".toList)]),
        (enGB, .ofList enGB [("bye".toList, "Goodbye".toList)])]
    (∀ tag ∈ b.locales, tag.HasPlainLanguage) ∧
      ∃ plan ∈ (planAll (b.validate maps)).1,
        (∀ requested ∈ [(deAT, "Tschau"), (enNZ, "Bye"), (fr, "Goodbye")],
          Translations.resolve? ⟨plan.templates, enGB.text⟩ requested.1 =
            some requested.2.toList) ∧
        ∃ tag, Serves b maps plan.key enNZ tag ∧
          templateIn maps plan.key tag = some "Bye".toList := by
  intro deAT deDE enCA enGB enNZ fr b maps
  have hplain : ∀ tag ∈ b.locales, tag.HasPlainLanguage := by
    unfold LocaleTag.HasPlainLanguage
    decide
  have hkeys : (planAll (b.validate maps)).1.map Plan.key = ["bye".toList] := by decide +kernel
  have hresolve : ∀ plan ∈ (planAll (b.validate maps)).1,
      ∀ requested ∈ [(deAT, "Tschau"), (enNZ, "Bye"), (fr, "Goodbye")],
        Translations.resolve? ⟨plan.templates, enGB.text⟩ requested.1 =
          some requested.2.toList := by
    decide +kernel
  obtain ⟨plan, hplan⟩ : ∃ plan, plan ∈ (planAll (b.validate maps)).1 := by
    apply List.exists_mem_of_ne_nil
    intro hnil
    rw [hnil] at hkeys
    cases hkeys
  obtain ⟨tag, template, hserves, htemplate, _, hcall⟩ :=
    exists_template_of_planAll hplain hplan enNZ
  have hbye : some template = some "Bye".toList :=
    (hcall []).1.symm.trans (hresolve plan hplan (enNZ, "Bye") (by simp))
  exact ⟨hplain, plan, hplan, hresolve plan hplan, tag, hserves, htemplate.trans hbye⟩

end Accessor

end MessageCatalog
