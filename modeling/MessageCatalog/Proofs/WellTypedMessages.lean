import MessageCatalog.Proofs.DeclaredTypes
import MessageCatalog.Proofs.MessagePieces
import MessageCatalog.Proofs.NamedStyles
import MessageCatalog.Proofs.StoredArguments
import MessageCatalog.Proofs.ValidationOutcome

/-!
# Well-typed messages

Arguments that fit the signature of a message can be formatted in every locale of a bundle that was
validated without a problem for the message. A placeholder takes every value of the type that it
declares; the signature that the validation leaves has every type that a locale declares; so no
argument is of the wrong kind. What can still fail is an explicit pattern, and whatever a choice
selects.

## Main statements

* `written_error_cases` : why a placeholder can refuse a value of its type
* `finalSignature?_agrees` : without a problem, the final signature has the types of every locale
* `format_of_validated` : a message without problems does not go wrong
-/

namespace MessageCatalog

open Text

/-! ## Section 1: Values and types -/

namespace Argument

/-- Whether a value fits a type. A missing value fits every type, and an untyped argument may have
every value. -/
def fits : Argument → ArgType → Bool
  | missing, _ => true
  | _, .untyped => true
  | text _, .string => true
  | number _, .number => true
  | number _, .choice => true
  | date _, .date => true
  | _, _ => false

variable {arg : Argument}

theorem exists_number_of_fits {type : ArgType} (htype : type = .number ∨ type = .choice)
    (h : arg.fits type = true) (hpresent : arg.isMissing = false) : ∃ n, arg = number n := by
  cases arg with
  | missing => cases hpresent
  | number n => exact ⟨n, rfl⟩
  | text t => rcases htype with rfl | rfl <;> cases h
  | date d => rcases htype with rfl | rfl <;> cases h

theorem exists_date_of_fits (h : arg.fits .date = true) (hpresent : arg.isMissing = false) :
    ∃ d, arg = date d := by
  cases arg with
  | missing => cases hpresent
  | date d => exact ⟨d, rfl⟩
  | text t => cases h
  | number n => cases h

end Argument

/-- The arguments fit a signature: at every index that it has, the value fits the type. -/
def Signature.Admits (s : Signature) (args : List Argument) : Prop :=
  ∀ index type, s.get? index = some type → (Argument.at? args index).fits type = true

/-- A failure that lies in the template or in the kind of an argument, not in a pattern. -/
def FormatError.isMismatch : FormatError → Bool
  | .template _ => true
  | .argumentKind _ _ _ => true
  | _ => false

namespace Message

variable {tag : LocaleTag} {args : List Argument} {p : Placeholder} {e : FormatError}

/-! ## Section 2: One placeholder -/

/-- A failure while the text is formatted that a choice placeholder selects. -/
def FailsInChoice (tag : LocaleTag) (args : List Argument) (p : Placeholder) (e : FormatError) :
    Prop :=
  ∃ number choice, Argument.at? args p.index = .number number ∧
    Choice.parse (choicePattern p) = .ok choice ∧
    format tag args (choice.select number.toFloat) = .error e

theorem choice_parse_error {pattern : Text} (h : Choice.parse pattern = .error e) :
    e = .choicePattern pattern := by
  unfold Choice.parse at h
  split at h
  · cases h
  · exact (Except.error.inj h).symm

theorem exists_formatUntyped (tag : LocaleTag) (p : Placeholder) (arg : Argument) :
    ∃ text, formatUntyped tag p arg = .ok text := by
  cases arg with
  | missing => exact ⟨_, rfl⟩
  | text t => exact ⟨_, rfl⟩
  | number n => exact ⟨_, rfl⟩
  | date d => exact d.exists_formatShort tag

/-- A date is refused for an explicit pattern only. -/
theorem date_error {v : DateTime} {part : DatePart} {style : Option Text}
    (h : v.format part (DateStyle.parse style) tag = .error e) :
    (!isNamed DateStyle.names style) = true ∧ e.isMismatch = false := by
  constructor
  · cases hnamed : isNamed DateStyle.names style with
    | false => rfl
    | true =>
      obtain ⟨text, htext⟩ := v.exists_format_of_named part tag (DateStyle.parse_ne_pattern hnamed)
      cases htext.symm.trans h
  · obtain ⟨pattern, reason, rfl⟩ := DateTime.format_error h
    rfl

/-- A number is refused for an explicit pattern only. -/
theorem number_error {n : Number} {symbols : Symbols} {style : Option Text}
    (h : (NumberStyle.parse style).map (n.format · symbols) = .error e) :
    (!isNamed NumberStyle.names style) = true ∧ e.isMismatch = false := by
  have hparse : NumberStyle.parse style = .error e := by
    cases hparse : NumberStyle.parse style with
    | ok s => simp [hparse, Except.map] at h
    | error e' =>
      rw [hparse] at h
      exact congrArg Except.error (Except.error.inj h)
  constructor
  · cases hnamed : isNamed NumberStyle.names style with
    | false => rfl
    | true =>
      obtain ⟨s, hs⟩ := NumberStyle.exists_parse_of_isNamed hnamed
      cases hs.symm.trans hparse
  · obtain ⟨pattern, rfl⟩ := NumberStyle.parse_error hparse
    rfl

/-- **Why a placeholder can refuse a value of its type**: an explicit pattern of it is malformed, or
it is a choice, of which the pattern is malformed or the selected text fails. -/
theorem written_error_cases (hfits : (Argument.at? args p.index).fits p.argType = true)
    (h : written tag args p = .error e) :
    (p.hasPattern = true ∧ e.isMismatch = false) ∨
      (p.argType = .choice ∧ (e.isMismatch = false ∨ FailsInChoice tag args p e)) := by
  unfold written formatPlaceholder at h
  -- a missing value is always written, so there is a value
  have hpresent : (Argument.at? args p.index).isMissing = false := by
    cases hmissing : (Argument.at? args p.index).isMissing with
    | false => rfl
    | true => simp [hmissing] at h
  simp only [hpresent, Bool.false_eq_true, if_false] at h
  unfold formatArgument at h
  obtain ⟨index, format⟩ := p
  match format with
  | none =>
    obtain ⟨text, htext⟩ := exists_formatUntyped tag ⟨index, none⟩ (Argument.at? args index)
    cases htext.symm.trans h
  | some ⟨.number, style⟩ =>
    obtain ⟨n, hn⟩ := Argument.exists_number_of_fits (.inl rfl) hfits hpresent
    simp only [hn] at h
    exact .inl (number_error h)
  | some ⟨.date, style⟩ =>
    obtain ⟨d, hd⟩ := Argument.exists_date_of_fits hfits hpresent
    simp only [hd] at h
    exact .inl (date_error h)
  | some ⟨.time, style⟩ =>
    obtain ⟨d, hd⟩ := Argument.exists_date_of_fits hfits hpresent
    simp only [hd] at h
    exact .inl (date_error h)
  | some ⟨.choice, style⟩ =>
    obtain ⟨n, hn⟩ := Argument.exists_number_of_fits (.inr rfl) hfits hpresent
    simp only [hn] at h
    refine .inr ⟨rfl, ?_⟩
    split at h
    · rename_i e' hparse
      obtain rfl : e' = e := Except.error.inj h
      obtain rfl := choice_parse_error hparse
      exact .inl rfl
    · rename_i choice hparse
      exact .inr ⟨n, choice, hn, hparse, h⟩

/-! ## Section 3: One template -/

theorem exists_of_mapM_eq_error {α β : Type} {f : α → Except FormatError β} {xs : List α}
    (h : xs.mapM f = .error e) : ∃ x ∈ xs, f x = .error e := by
  induction xs with
  | nil => cases h
  | cons x xs ih =>
    rw [List.mapM_cons] at h
    cases hx : f x with
    | error e' =>
      obtain rfl : e' = e := by simpa [hx, bind, Except.bind] using h
      exact ⟨x, List.mem_cons_self, hx⟩
    | ok y =>
      cases hxs : xs.mapM f with
      | error e' =>
        obtain rfl : e' = e := by simpa [hx, hxs, bind, Except.bind] using h
        obtain ⟨x', hmem, hx'⟩ := ih hxs
        exact ⟨x', List.mem_cons_of_mem _ hmem, hx'⟩
      | ok ys => simp [hx, hxs, bind, Except.bind, pure, Except.pure] at h

/-- A message fails where one of its placeholders does. -/
theorem exists_written_of_format_error {template : Text} {t : Template}
    (hparse : Template.parse template = .ok t) (h : format tag args template = .error e) :
    ∃ p ∈ t.placeholders, written tag args p = .error e := by
  rw [format_eq_fill hparse] at h
  cases hpieces : t.placeholders.mapM (written tag args) with
  | ok pieces => simp [hpieces, Except.map] at h
  | error e' =>
    obtain rfl : e' = e := by simpa [hpieces, Except.map] using h
    exact exists_of_mapM_eq_error hpieces

end Message

/-! ## Section 4: The final signature -/

namespace Validation

variable {b : Bundle} {maps : Table LocaleTag LocaleMessages} {key template : Text}
  {tag : LocaleTag} {main found : Signature} {earlier : List Signature} {index : Nat}
  {type : ArgType}

/-- **Without a problem, the final signature has the types of every locale.** -/
theorem finalSignature?_agrees (hproblems : ∀ tag ∈ b.locales, problemsAt b maps key tag = [])
    (hmain : (templateIn maps key b.mainLocale).isSome = true) (htag : tag ∈ b.locales)
    (htemplate : templateIn maps key tag = some template) :
    ∃ found final, Template.parseSignature template = .ok found ∧
      finalSignature? b maps key = some final ∧
      ∀ index type, found.get? index = some type → type.isConcrete = true →
        final.get? index = some type := by
  -- the main template has a signature
  obtain ⟨mainTemplate, hmainTemplate⟩ := Option.isSome_iff_exists.mp hmain
  obtain ⟨main, hmainSignature⟩ : ∃ main, Template.parseSignature mainTemplate = .ok main := by
    have hnone := hproblems b.mainLocale b.main_mem
    simp only [problemsAt, hmainTemplate, if_true] at hnone
    cases hparse : Template.parseSignature mainTemplate with
    | ok main => exact ⟨main, rfl⟩
    | error e => simp [hparse] at hnone
  have hmainIn : signatureIn? maps key b.mainLocale = some main := by
    simp [signatureIn?, hmainTemplate, hmainSignature, Except.toOption]
  by_cases hsame : tag = b.mainLocale
  · subst hsame
    obtain rfl : mainTemplate = template := Option.some.inj (hmainTemplate.symm.trans htemplate)
    refine ⟨main, _, hmainSignature, by rw [finalSignature?, hmainIn]; rfl, ?_⟩
    intro index type hget hconcrete
    have hindex : index < main.size := (List.getElem?_eq_some_iff.mp hget).1
    exact get?_inForce (typeInForce?_of_main hget hconcrete _) hindex
  · have hsecondary : tag ∈ b.secondaryLocales := mem_secondaryLocales_iff.mpr ⟨htag, hsame⟩
    have hnone := hproblems tag htag
    simp only [problemsAt, hmainTemplate, if_neg hsame, secondaryProblems, htemplate,
      hmainIn] at hnone
    cases hparse : Template.parseSignature template with
    | error e => simp [hparse] at hnone
    | ok found =>
      simp only [hparse] at hnone
      have hsize : found.size = main.size := by
        by_contra hne
        simp [hne] at hnone
      rw [if_pos hsize] at hnone
      -- the locales before and after this one in tag order
      obtain ⟨before, after, hsplit⟩ := List.append_of_mem hsecondary
      have hearlier :
          earlierSignatures b maps key tag = before.filterMap (signatureIn? maps key) := by
        rw [earlierSignatures, hsplit, filter_before (hsplit ▸ ascending_secondaryLocales b)]
      have hfoundIn : signatureIn? maps key tag = some found := by
        simp [signatureIn?, htemplate, hparse, Except.toOption]
      have hall : b.secondaryLocales.filterMap (signatureIn? maps key) =
          earlierSignatures b maps key tag ++ [found] ++
            after.filterMap (signatureIn? maps key) := by
        rw [hearlier, hsplit, List.filterMap_append, List.filterMap_cons_some hfoundIn]
        simp
      refine ⟨found, _, rfl, by rw [finalSignature?, hmainIn, Option.map_some, hall], ?_⟩
      intro index type hget hconcrete
      have hindex : index < main.size := by
        rw [← hsize]
        exact (List.getElem?_eq_some_iff.mp hget).1
      exact get?_inForce (typeInForce?_append (typeInForce?_of_agrees hsize hnone hget hconcrete) _)
        hindex

/-! ## Section 5: Messages without problems -/

/-- A key with no recorded problem has none in any tracked locale. -/
theorem problemsAt_eq_nil_of_errorsFor (h : (b.validate maps).errorsFor key = [])
    (htag : tag ∈ b.locales) : problemsAt b maps key tag = [] := by
  by_cases hvisited : (key, tag) ∈ visitedPlaces b maps
  · apply List.eq_nil_iff_forall_not_mem.mpr
    intro e he
    have hreported : e ∈ (b.validate maps).errors := by
      show e ∈ sortErrors (foundErrors b maps)
      rw [sortErrors_foundErrors]
      exact List.mem_flatMap.mpr ⟨_, mem_reportedPlaces_of_mem_visitedPlaces hvisited, he⟩
    have hnone := List.filter_eq_nil_iff.mp h e hreported
    exact hnone (beq_iff_eq.mpr (place_of_mem_problemsAt he).1)
  · exact problemsAt_of_not_mem_visitedPlaces htag hvisited

/-- The template of a message in a locale is the one of a tracked locale with the same tag. -/
theorem exists_tracked_of_template? (h : (b.validate maps).template? key tag = some template) :
    (templateIn maps key b.mainLocale).isSome = true ∧
      ∃ tracked ∈ b.locales, templateIn maps key tracked = some template := by
  rw [MessageSpecs.template?, get?_specs] at h
  cases hmain : templateIn maps key b.mainLocale with
  | none => simp [hmain] at h
  | some mainTemplate =>
    rw [hmain, Option.map_some, Option.bind_some, get?_templates hmain] at h
    obtain ⟨htracked, htemplate⟩ := Option.ite_none_right_eq_some.mp h
    obtain ⟨tracked, hmem, hsame⟩ := List.any_eq_true.mp htracked
    refine ⟨rfl, tracked, hmem, ?_⟩
    rw [← templateIn_congr (same_iff_compare.mp hsame)]
    exact htemplate

/-- **A message without problems does not go wrong.** With arguments that fit its signature, the
template of a tracked locale is formatted for every locale without a failure of the template or of
the kind of an argument, except for one in a text that a choice selects; without choices and
explicit patterns it is formatted. -/
theorem format_of_validated (hproblems : (b.validate maps).errorsFor key = [])
    (htemplate : (b.validate maps).template? key tag = some template) :
    ∃ signature t, (b.validate maps).signature? key = some signature ∧
      Template.parse template = .ok t ∧
      ∀ locale args, signature.Admits args →
        (∀ e, Message.format locale args template = .error e → e.isMismatch = true →
          ∃ p ∈ t.placeholders, p.argType = .choice ∧ Message.FailsInChoice locale args p e) ∧
        ((∀ p ∈ t.placeholders, p.argType ≠ .choice ∧ p.hasPattern = false) →
          ∃ text, Message.format locale args template = .ok text) := by
  obtain ⟨hmain, tracked, hmem, hfound⟩ := exists_tracked_of_template? htemplate
  obtain ⟨found, final, hsignature, hfinal, hagrees⟩ := finalSignature?_agrees
    (fun tag htag => problemsAt_eq_nil_of_errorsFor hproblems htag) hmain hmem hfound
  obtain ⟨t, hparse, hdeclared⟩ := Template.parseSignature_eq_ok_iff.mp hsignature
  refine ⟨final, t, (signature?_eq b maps key).trans hfinal, hparse, ?_⟩
  intro locale args hargs
  -- every placeholder is given a value of the type that it declares
  have hfits : ∀ p ∈ t.placeholders, (Argument.at? args p.index).fits p.argType = true := by
    intro p hp
    cases hconcrete : p.argType.isConcrete with
    | false =>
      rw [eq_untyped_of_isConcrete hconcrete]
      cases Argument.at? args p.index <;> rfl
    | true =>
      exact hargs _ _ (hagrees _ _ (Template.signature_of_placeholder hdeclared hp hconcrete)
        hconcrete)
  constructor
  · intro e herror hmismatch
    obtain ⟨p, hp, hwritten⟩ := Message.exists_written_of_format_error hparse herror
    rcases Message.written_error_cases (hfits p hp) hwritten with ⟨_, hno⟩ | ⟨htype, hno | hnested⟩
    · simp [hmismatch] at hno
    · simp [hmismatch] at hno
    · exact ⟨p, hp, htype, hnested⟩
  · intro hplain
    cases hformat : Message.format locale args template with
    | ok text => exact ⟨text, rfl⟩
    | error e =>
      obtain ⟨p, hp, hwritten⟩ := Message.exists_written_of_format_error hparse hformat
      obtain ⟨hchoice, hpattern⟩ := hplain p hp
      rcases Message.written_error_cases (hfits p hp) hwritten with ⟨hhas, _⟩ | ⟨htype, _⟩
      · simp [hpattern] at hhas
      · exact absurd htype hchoice

/-- A message with an index that the main locale leaves out and one that only another locale gives a
type, and a message whose choice selects a text that does go wrong. -/
theorem format_of_validated_gap :
    let en : LocaleTag := ⟨"en".toList, none, none, []⟩
    let fr : LocaleTag := ⟨"fr".toList, none, none, []⟩
    let b : Bundle :=
      ⟨"m".toList, [], en, [en, fr], [], .lastRootWins, by unfold Ordered.Ascending; decide,
        by decide⟩
    let due := "\x7b1,number\x7d on \x7b2\x7d".toList
    let duFrench := "\x7b0\x7d: \x7b1\x7d, \x7b2,date,short\x7d".toList
    let mail := "\x7b0,choice,0#none|1#\x7b1,number\x7d\x7d".toList
    let maps : Table LocaleTag LocaleMessages := Table.ofList
      [(en, .ofList en [("due".toList, due), ("mail".toList, mail)]),
        (fr, .ofList fr [("due".toList, duFrench), ("mail".toList, mail)])]
    let signature : Signature := ⟨[.string, .number, .date]⟩
    let args : List Argument := [.text "Ann".toList, .number (.ofInt 3), .missing]
    let wrong : List Argument := [.number (.ofInt 3), .text "x".toList]
    let e : FormatError := .argumentKind 1 "number" "text"
    ((b.validate maps).errorsFor "due".toList = [] ∧
        (b.validate maps).template? "due".toList fr = some duFrench ∧
        (b.validate maps).signature? "due".toList = some signature ∧ signature.Admits args ∧
        ∃ text, Message.format en args duFrench = .ok text) ∧
      ((b.validate maps).errorsFor "mail".toList = [] ∧
        (b.validate maps).template? "mail".toList fr = some mail ∧
        (b.validate maps).signature? "mail".toList = some ⟨[.choice]⟩ ∧
        Signature.Admits ⟨[.choice]⟩ wrong ∧ Message.format en wrong mail = .error e ∧
        ∃ t, Template.parse mail = .ok t ∧
          ∃ p ∈ t.placeholders, p.argType = .choice ∧ Message.FailsInChoice en wrong p e) := by
  intro en fr b due duFrench mail maps signature args wrong e
  constructor
  · have hproblems : (b.validate maps).errorsFor "due".toList = [] := by decide +kernel
    have htemplate : (b.validate maps).template? "due".toList fr = some duFrench := by
      decide +kernel
    have hsignature : (b.validate maps).signature? "due".toList = some signature := by
      decide +kernel
    have hargs : signature.Admits args := by
      intro index type htype
      match index with
      | 0 => obtain rfl := Option.some.inj htype; rfl
      | 1 => obtain rfl := Option.some.inj htype; rfl
      | 2 => obtain rfl := Option.some.inj htype; rfl
      | _ + 3 => cases htype
    have hplain : (Template.parse duFrench).toOption.all fun t =>
        t.placeholders.all fun p => p.argType != .choice && !p.hasPattern := by decide +kernel
    obtain ⟨found, t, hfound, hparse, hformat⟩ := format_of_validated hproblems htemplate
    obtain rfl : found = signature := Option.some.inj (hfound.symm.trans hsignature)
    refine ⟨hproblems, htemplate, hsignature, hargs, (hformat en args hargs).2 fun p hp => ?_⟩
    rw [hparse] at hplain
    simpa using List.all_eq_true.mp hplain p hp
  · have hproblems : (b.validate maps).errorsFor "mail".toList = [] := by decide +kernel
    have htemplate : (b.validate maps).template? "mail".toList fr = some mail := by decide +kernel
    have hsignature : (b.validate maps).signature? "mail".toList = some ⟨[.choice]⟩ := by
      decide +kernel
    have hargs : Signature.Admits ⟨[.choice]⟩ wrong := by
      intro index type htype
      match index with
      | 0 => obtain rfl := Option.some.inj htype; rfl
      | _ + 1 => cases htype
    have herror : Message.format en wrong mail = .error e := by decide +kernel
    obtain ⟨found, t, hfound, hparse, hformat⟩ := format_of_validated hproblems htemplate
    obtain rfl : found = ⟨[.choice]⟩ := Option.some.inj (hfound.symm.trans hsignature)
    exact ⟨hproblems, htemplate, hsignature, hargs, herror, t, hparse,
      (hformat en wrong hargs).1 e herror rfl⟩

end Validation

end MessageCatalog
