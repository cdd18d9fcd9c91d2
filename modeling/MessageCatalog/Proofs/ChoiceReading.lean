import MessageCatalog.Proofs.ChoiceOrder
import MessageCatalog.Proofs.ContradictingValues

/-!
# Reading choices back

A choice is read by the first alternative whose text the captured piece follows. The value of the
choice is the number read at its own index, or else the limit of the alternative. A value of another
kind at that index is stored first, and then the limit contradicts it.

## Main statements

* `readChoice_of_matched` : the alternative that is read, and what is done with its values
* `outcome_storeAlternative` : what reading an alternative into no arguments ends with
* `at?_read_of_not_mentions` : reading gives no value to an index that is not mentioned
* `select_of_readChoice` : what the limit read from an alternative selects
-/

namespace MessageCatalog.Message

open Text Segment

/-! ## Section 1: The alternative that is read -/

/-- A captured text is read by an alternative, the first one of a choice that it follows. -/
structure Matched (setting : Setting) (captured : Text) (choice : Choice)
    (before : List Alternative) (a : Alternative) (values : List Argument) : Prop where
  divided : ∃ after, choice.alternatives = before ++ a :: after
  others : ∀ b ∈ before, ∃ e, read setting b.text captured = .error e
  reads : read setting a.text captured = .ok values

/-- Store the values of an alternative, and then the value of the choice. -/
def storeAlternative (text : Text) (index : Nat) (limit : Float) (values args : List Argument) :
    Except FormatError (List Argument) :=
  mergeAlternative text index 0 (.number (limitNumber limit)) values args >>= fun merged =>
    store text merged.2 index merged.1

section

variable {setting : Setting} {text captured : Text} {index bound : Nat}
  {args values result : List Argument} {choice : Choice} {before : List Alternative}
  {a : Alternative}

theorem readChoice_append (hbefore : ∀ b ∈ before, ∃ e, read setting b.text captured = .error e)
    (ha : read setting a.text captured = .ok values) (after : List Alternative)
    (h : ∀ b ∈ before ++ a :: after, b.text.length < bound) :
    readChoice text captured index bound (fun inner _ text => read setting inner text) args
        (before ++ a :: after) h =
      storeAlternative text index a.limit values args := by
  induction before with
  | nil =>
    simp only [List.nil_append, readChoice, ha]
    rfl
  | cons b rest ih =>
    obtain ⟨e, he⟩ := hbefore b List.mem_cons_self
    simp only [List.cons_append, readChoice, he]
    exact ih (fun c hc => hbefore c (List.mem_cons_of_mem _ hc)) _

/-- **A choice is read by the first alternative that the text follows.** -/
theorem readChoice_of_matched (hmatched : Matched setting captured choice before a values)
    (h : ∀ b ∈ choice.alternatives, b.text.length < bound) :
    readChoice text captured index bound (fun inner _ text => read setting inner text) args
        choice.alternatives h =
      storeAlternative text index a.limit values args := by
  obtain ⟨⟨after, hdivided⟩, hbefore, ha⟩ := hmatched
  obtain ⟨alternatives⟩ := choice
  obtain rfl : alternatives = before ++ a :: after := hdivided
  exact readChoice_append hbefore ha after h

end

/-! ## Section 2: The values of an alternative -/

section

variable {text : Text} {index position : Nat} {args values rest result : List Argument}
  {arg value : Argument}

theorem eq_missing_of_isMissing (h : arg.isMissing = true) : arg = .missing := by
  cases arg with
  | missing => rfl
  | text t => cases h
  | number n => cases h
  | date d => cases h

/-- **What storing a value does**: the value stands at its index, or the same one stood there, and
every other index is left alone. -/
theorem at?_of_store (h : store text args index value = .ok result) :
    (Argument.at? result index = value ∨ (Argument.at? result index).same value = true) ∧
      ∀ i ≠ index, Argument.at? result i = Argument.at? args i := by
  cases hpresent : (Argument.at? args index).isMissing with
  | true =>
    obtain ⟨stored, hstored, -, hat⟩ :=
      store_of_missing text value (eq_missing_of_isMissing hpresent)
    obtain rfl : stored = result := Except.ok.inj (hstored.symm.trans h)
    refine ⟨.inl ?_, fun i hi => ?_⟩
    · rw [hat, if_pos rfl]
    · rw [hat, if_neg hi]
  | false =>
    rw [store_of_present text value hpresent] at h
    split at h
    · rename_i hsame
      obtain rfl : args = result := Except.ok.inj h
      exact ⟨.inr hsame, fun _ _ => rfl⟩
    · cases h

/-- The value of a choice once a value at its own index is known: a number replaces it. -/
def replaced (value : Argument) : Argument → Argument
  | .number n => .number n
  | _ => value

/-- What is stored of a value besides the value of the choice: not the number at its own index. -/
def besides (index position : Nat) : Argument → Argument
  | .number n => if position = index then .missing else .number n
  | arg => arg

theorem replaced_of_not_number (h : ∀ n, arg ≠ .number n) : replaced value arg = value := by
  cases arg with
  | number n => exact absurd rfl (h n)
  | missing => rfl
  | text t => rfl
  | date d => rfl

theorem besides_of_not_number (h : ∀ n, arg ≠ .number n) : besides index position arg = arg := by
  cases arg with
  | number n => exact absurd rfl (h n)
  | missing => rfl
  | text t => rfl
  | date d => rfl

theorem besides_of_ne (h : position ≠ index) (arg : Argument) :
    besides index position arg = arg := by
  cases arg with
  | number n => exact if_neg h
  | missing => rfl
  | text t => rfl
  | date d => rfl

/-- Store a value unless it is missing. -/
def storePresent (text : Text) (position : Nat) (arg : Argument) (args : List Argument) :
    Except FormatError (List Argument) :=
  if arg.isMissing then .ok args else store text args position arg

/-- One value of an alternative is taken. -/
theorem mergeAlternative_cons (text : Text) (index position : Nat) (value arg : Argument)
    (rest args : List Argument) :
    mergeAlternative text index position value (arg :: rest) args =
      storePresent text position (besides index position arg) args >>= fun next =>
        mergeAlternative text index (position + 1)
          (if position = index then replaced value arg else value) rest next := by
  cases arg with
  | number n =>
    by_cases h : position = index
    · simp [mergeAlternative, besides, replaced, storePresent, h, Argument.isMissing, bind,
        Except.bind]
    · simp [mergeAlternative, besides, storePresent, h, Argument.isMissing]
  | missing => simp [mergeAlternative, besides, replaced, storePresent, Argument.isMissing, bind,
      Except.bind]
  | text t => simp [mergeAlternative, besides, replaced, storePresent, Argument.isMissing]
  | date d => simp [mergeAlternative, besides, replaced, storePresent, Argument.isMissing]

theorem at?_cons_zero (arg : Argument) (rest : List Argument) :
    Argument.at? (arg :: rest) 0 = arg := rfl

theorem at?_cons_sub {i : Nat} (h : position < i) (arg : Argument) (rest : List Argument) :
    Argument.at? (arg :: rest) (i - position) = Argument.at? rest (i - (position + 1)) := by
  rw [show i - position = i - (position + 1) + 1 by omega]
  rfl

theorem at?_of_storePresent {next : List Argument}
    (h : storePresent text position arg args = .ok next) :
    ∀ i, (i = position → arg = .missing) → Argument.at? next i = Argument.at? args i := by
  intro i hi
  unfold storePresent at h
  split at h
  · obtain rfl : args = next := Except.ok.inj h
    rfl
  · rename_i hpresent
    refine (at?_of_store h).2 i fun heq => hpresent ?_
    rw [hi heq]
    rfl

/-- **The value of a choice after the values of an alternative are taken.** -/
theorem value_of_mergeAlternative {merged : Argument × List Argument}
    (h : mergeAlternative text index position value values args = .ok merged) :
    merged.1 =
      if position ≤ index then replaced value (Argument.at? values (index - position))
      else value := by
  -- each value is compared with its own position, so the position moves along with the induction
  induction values generalizing position value args with
  | nil =>
    obtain rfl : (value, args) = merged := Except.ok.inj h
    split <;> rfl
  | cons arg rest ih =>
    rw [mergeAlternative_cons] at h
    obtain ⟨next, -, h⟩ := bind_eq_ok_iff.mp h
    rw [ih h]
    obtain hlt | rfl | hgt := lt_trichotomy position index
    · rw [if_neg hlt.ne, if_pos (Nat.succ_le_of_lt hlt), if_pos hlt.le, at?_cons_sub hlt]
    · rw [if_neg (by omega), if_pos rfl, if_pos le_rfl, Nat.sub_self, at?_cons_zero]
    · rw [if_neg (by omega), if_neg hgt.ne', if_neg (by omega)]

/-- An index that the alternative gives no value to is left alone. -/
theorem at?_of_mergeAlternative {merged : Argument × List Argument}
    (h : mergeAlternative text index position value values args = .ok merged) {i : Nat}
    (hmissing : position ≤ i → Argument.at? values (i - position) = .missing) :
    Argument.at? merged.2 i = Argument.at? args i := by
  induction values generalizing position value args with
  | nil =>
    obtain rfl : (value, args) = merged := Except.ok.inj h
    rfl
  | cons arg rest ih =>
    rw [mergeAlternative_cons] at h
    obtain ⟨next, hnext, h⟩ := bind_eq_ok_iff.mp h
    rw [ih h]
    · apply at?_of_storePresent hnext
      rintro rfl
      have harg := hmissing le_rfl
      rw [Nat.sub_self, at?_cons_zero] at harg
      rw [harg]
      rfl
    · intro hlt
      rw [← at?_cons_sub hlt arg]
      exact hmissing (Nat.le_of_succ_le hlt)

/-- **Values are all taken where nothing is stored yet.** -/
theorem exists_mergeAlternative (text : Text) (index : Nat) (value : Argument)
    (values : List Argument) (hmissing : ∀ i, position ≤ i → Argument.at? args i = .missing) :
    ∃ merged, mergeAlternative text index position value values args = .ok merged ∧
      ∀ i, Argument.at? merged.2 i =
        if position ≤ i then besides index i (Argument.at? values (i - position))
        else Argument.at? args i := by
  induction values generalizing position value args with
  | nil =>
    refine ⟨(value, args), rfl, fun i => ?_⟩
    split
    · rename_i hle
      rw [hmissing i hle]
      rfl
    · rfl
  | cons arg rest ih =>
    -- the position of the value is still free, so storing it there succeeds
    obtain ⟨next, hnext, hat⟩ : ∃ next,
        storePresent text position (besides index position arg) args = .ok next ∧
          ∀ i, Argument.at? next i =
            if i = position then besides index position arg else Argument.at? args i := by
      unfold storePresent
      split
      · rename_i habsent
        refine ⟨args, rfl, fun i => ?_⟩
        split
        · rename_i hi
          rw [hi, hmissing position le_rfl, eq_missing_of_isMissing habsent]
        · rfl
      · obtain ⟨next, hnext, -, hat⟩ :=
          store_of_missing text (besides index position arg) (hmissing position le_rfl)
        exact ⟨next, hnext, hat⟩
    have hfree : ∀ i, position + 1 ≤ i → Argument.at? next i = .missing := by
      intro i hi
      rw [hat, if_neg (by omega)]
      exact hmissing i (Nat.le_of_succ_le hi)
    obtain ⟨merged, hmerged, hrest⟩ := ih (if position = index then replaced value arg else value)
      hfree
    refine ⟨merged, ?_, fun i => ?_⟩
    · rw [mergeAlternative_cons, hnext]
      exact hmerged
    · rw [hrest, hat]
      obtain hlt | rfl | hgt := lt_trichotomy position i
      · rw [if_pos (Nat.succ_le_of_lt hlt), if_pos hlt.le, at?_cons_sub hlt]
      · rw [if_neg (by omega), if_pos rfl, if_pos le_rfl, Nat.sub_self, at?_cons_zero]
      · rw [if_neg (by omega), if_neg hgt.ne, if_neg (by omega)]

end

/-! ## Section 3: The value of a choice -/

section

variable {setting : Setting} {text captured : Text} {index bound : Nat}
  {args values result : List Argument} {choice : Choice} {before : List Alternative}
  {a : Alternative} {limit : Float}

/-- What an alternative that is read into no arguments ends with, by the value at the index of the
choice: a number is the value of the choice, no value leaves the limit, and a value of another kind
contradicts the limit. -/
inductive ChoiceOutcome (text : Text) (index : Nat) (limit : Float) (values : List Argument) :
    Except FormatError (List Argument) → Prop
  | number {n : Number} {result : List Argument} (hown : Argument.at? values index = .number n)
      (hresult : ∀ i, Argument.at? result i = Argument.at? values i) :
      ChoiceOutcome text index limit values (.ok result)
  | limit {result : List Argument} (hown : Argument.at? values index = .missing)
      (hresult : ∀ i, Argument.at? result i =
        if i = index then .number (limitNumber limit) else Argument.at? values i) :
      ChoiceOutcome text index limit values (.ok result)
  | contradicted (hown : (Argument.at? values index).isMissing = false)
      (hkind : ∀ n, Argument.at? values index ≠ .number n) :
      ChoiceOutcome text index limit values (.error (contradiction text index))

theorem same_number_eq_false {arg : Argument} (h : ∀ n, arg ≠ .number n) (n : Number) :
    arg.same (.number n) = false := by
  cases arg with
  | number m => exact absurd rfl (h m)
  | missing => rfl
  | text t => rfl
  | date d => rfl

/-- **What reading an alternative into no arguments ends with.** -/
theorem outcome_storeAlternative (text : Text) (index : Nat) (limit : Float)
    (values : List Argument) :
    ChoiceOutcome text index limit values (storeAlternative text index limit values []) := by
  have hempty : ∀ i, 0 ≤ i → Argument.at? [] i = .missing := fun i hi =>
    Argument.at?_of_length_le hi
  obtain ⟨⟨value, args⟩, hmerged, hat⟩ :=
    exists_mergeAlternative text index (.number (limitNumber limit)) values hempty
  have hvalue := value_of_mergeAlternative hmerged
  simp only [Nat.zero_le, if_true, Nat.sub_zero] at hvalue hat
  subst hvalue
  have hother : ∀ i ≠ index, Argument.at? args i = Argument.at? values i := by
    intro i hi
    rw [hat, besides_of_ne hi]
  have hstore : storeAlternative text index limit values [] =
      store text args index
        (replaced (.number (limitNumber limit)) (Argument.at? values index)) := by
    unfold storeAlternative
    rw [hmerged]
    rfl
  rw [hstore]
  by_cases hnumber : ∃ n, Argument.at? values index = .number n
  · -- the number was kept apart, so its place is still free
    obtain ⟨n, hown⟩ := hnumber
    have hfree : Argument.at? args index = .missing := by
      rw [hat, hown]
      exact if_pos rfl
    obtain ⟨result, hresult, -, hplace⟩ := store_of_missing text (.number n) hfree
    rw [hown, replaced, hresult]
    apply ChoiceOutcome.number hown
    intro i
    rw [hplace]
    split
    · rename_i hi
      rw [hi, hown]
    · rename_i hi
      exact hother i hi
  · have hkind : ∀ n, Argument.at? values index ≠ .number n := fun n hn => hnumber ⟨n, hn⟩
    have hown : Argument.at? args index = Argument.at? values index := by
      rw [hat, besides_of_not_number hkind]
    rw [replaced_of_not_number hkind]
    cases hpresent : (Argument.at? values index).isMissing with
    | true =>
      have hmissing := eq_missing_of_isMissing hpresent
      obtain ⟨result, hresult, -, hplace⟩ :=
        store_of_missing text (.number (limitNumber limit)) (hown.trans hmissing)
      rw [hresult]
      apply ChoiceOutcome.limit hmissing
      intro i
      rw [hplace]
      split
      · rfl
      · rename_i hi
        exact hother i hi
    | false =>
      -- the value stands at the index of the choice before the limit is stored there
      rw [store_of_present text _ (by rw [hown, hpresent]), hown,
        same_number_eq_false hkind, if_neg Bool.false_ne_true]
      exact ChoiceOutcome.contradicted hpresent hkind

end

/-! ## Section 4: Indices that are not mentioned -/

/-- A template mentions an index in a placeholder or in the text of an alternative of a choice. -/
inductive Mentions (index : Nat) : Text → Prop
  | placeholder {template : Text} {t : Template} {p : Placeholder}
      (hparse : Template.parse template = .ok t) (hp : p ∈ t.placeholders)
      (hindex : p.index = index) : Mentions index template
  | alternative {template : Text} {t : Template} {p : Placeholder} {choice : Choice}
      {a : Alternative} (hparse : Template.parse template = .ok t) (hp : p ∈ t.placeholders)
      (hchoice : Choice.parse (choicePattern p) = .ok choice) (ha : a ∈ choice.alternatives)
      (h : Mentions index a.text) : Mentions index template

section

variable {setting : Setting} {text captured : Text} {index bound : Nat}
  {args values result : List Argument} {p : Placeholder}

/-- Along some alternatives nothing but the index of the choice is given a value that none of them
gives one. -/
theorem at?_of_readChoice {alternatives : List Alternative} {h} {i : Nat} (hi : i ≠ index)
    (hnested : ∀ a ∈ alternatives, ∀ values, read setting a.text captured = .ok values →
      Argument.at? values i = .missing)
    (hread : readChoice text captured index bound (fun inner _ text => read setting inner text) args
      alternatives h = .ok result) : Argument.at? result i = Argument.at? args i := by
  induction alternatives with
  | nil => cases hread
  | cons a rest ih =>
    rw [readChoice] at hread
    cases ha : read setting a.text captured with
    | error e =>
      rw [ha] at hread
      exact ih (fun b hb => hnested b (List.mem_cons_of_mem _ hb)) hread
    | ok values =>
      rw [ha] at hread
      obtain ⟨merged, hmerged, hstore⟩ := bind_eq_ok_iff.mp hread
      have hmissing := hnested a List.mem_cons_self values ha
      rw [(at?_of_store hstore).2 i hi, at?_of_mergeAlternative hmerged fun _ => hmissing]

/-- A placeholder of another index leaves an index alone, unless an alternative gives it a value. -/
theorem at?_of_readPiece {i : Nat} (hi : i ≠ p.index) {piece : Text}
    (hnested : ∀ choice, Choice.parse (choicePattern p) = .ok choice →
      ∀ a ∈ choice.alternatives, ∀ values, read setting a.text piece = .ok values →
        Argument.at? values i = .missing)
    (h : readPiece setting text args (p, piece) = .ok result) :
    Argument.at? result i = Argument.at? args i := by
  obtain ⟨index, format⟩ := p
  match format with
  | none => exact (at?_of_store h).2 i hi
  | some ⟨.number, style⟩ =>
    obtain ⟨numberStyle, -, h⟩ := bind_eq_ok_iff.mp h
    obtain ⟨n, -, h⟩ := bind_eq_ok_iff.mp h
    exact (at?_of_store h).2 i hi
  | some ⟨.date, style⟩ =>
    obtain ⟨d, -, h⟩ := bind_eq_ok_iff.mp h
    exact (at?_of_store h).2 i hi
  | some ⟨.time, style⟩ =>
    obtain ⟨d, -, h⟩ := bind_eq_ok_iff.mp h
    exact (at?_of_store h).2 i hi
  | some ⟨.choice, style⟩ =>
    unfold readPiece readPlaceholder at h
    simp only at h
    split at h
    · cases h
    · rename_i choice hchoice
      exact at?_of_readChoice hi (hnested choice hchoice) h

theorem at?_of_foldlM {entries : List (Placeholder × Text)}
    (hstep : ∀ e ∈ entries, ∀ args next, readPiece setting text args e = .ok next →
      Argument.at? next index = Argument.at? args index)
    (h : entries.foldlM (readPiece setting text) args = .ok result) :
    Argument.at? result index = Argument.at? args index := by
  induction entries generalizing args with
  | nil =>
    obtain rfl : args = result := Except.ok.inj h
    rfl
  | cons e rest ih =>
    rw [List.foldlM_cons] at h
    obtain ⟨next, hnext, h⟩ := bind_eq_ok_iff.mp h
    rw [ih (fun f hf => hstep f (List.mem_cons_of_mem _ hf)) h]
    exact hstep e List.mem_cons_self args next hnext

theorem exists_parse_of_read {template : Text} (h : read setting template text = .ok values) :
    ∃ t, Template.parse template = .ok t := by
  rw [read] at h
  split at h
  · cases h
  · rename_i t ht
    exact ⟨t, ht⟩

/-- **Reading gives no value to an index that is not mentioned.** -/
theorem at?_read_of_not_mentions {template : Text} (h : ¬ Mentions index template)
    (hread : read setting template text = .ok values) :
    Argument.at? values index = .missing := by
  -- alternatives are shorter than the template around them
  induction hlength : template.length using Nat.strong_induction_on
    generalizing template text values with
  | h length ih =>
    subst hlength
    obtain ⟨t, hparse⟩ := exists_parse_of_read hread
    obtain ⟨pieces, hcut⟩ := exists_cut?_of_read hparse hread
    rw [read_of_cut? hparse hcut] at hread
    rw [at?_of_foldlM ?_ hread]
    · exact Argument.at?_of_length_le (Nat.zero_le index)
    rintro ⟨p, piece⟩ he args next hnext
    have hp : p ∈ t.placeholders := (List.of_mem_zip he).1
    refine at?_of_readPiece (fun heq => h (.placeholder hparse hp heq.symm)) ?_ hnext
    intro choice hchoice a ha nested hnested
    have hshorter : a.text.length < template.length :=
      Nat.lt_of_lt_of_le (Choice.length_alternative_lt (Choice.parse?_of_parse hchoice) ha)
        (length_choicePattern_le hparse hp)
    exact ih a.text.length hshorter (fun hm => h (.alternative hparse hp hchoice ha hm)) hnested rfl

end

/-- A literal is read from itself, without values. -/
theorem read_literal_self (setting : Setting) {template literal : Text}
    (hparse : Template.parse template = .ok ⟨template, [.literal literal]⟩) :
    read setting template literal = .ok [] := by
  have hwhole : stripPrefix? literal literal = some [] :=
    stripPrefix?_eq_some_iff.mpr (List.append_nil literal).symm
  have hcut : cut? [.literal literal] literal = some [] := by
    rw [cut?, hwhole]
    rfl
  rw [read_of_cut? hparse hcut]
  rfl

/-- A literal is not read from a text that does not start with it. -/
theorem read_literal_other (setting : Setting) {template literal : Text}
    (hparse : Template.parse template = .ok ⟨template, [.literal literal]⟩)
    (hother : stripPrefix? literal text = none) :
    read setting template text = .error (expected text literal) := by
  rw [read_of_parse hparse, readSegments, hother]

/-- Literal text mentions no index. -/
theorem not_mentions_of_placeholders_eq_nil {template : Text} {t : Template}
    (hparse : Template.parse template = .ok t) (h : t.placeholders = []) :
    ¬ Mentions index template := by
  have hnone : ∀ {t' p}, Template.parse template = .ok t' → p ∉ t'.placeholders := by
    intro t' p hparse' hp
    obtain rfl : t = t' := Except.ok.inj (hparse.symm.trans hparse')
    rw [h] at hp
    cases hp
  intro hm
  cases hm with
  | placeholder hparse' hp _ => exact hnone hparse' hp
  | alternative hparse' hp _ _ _ => exact hnone hparse' hp

/-! ## Section 5: Limits -/

section

variable {setting : Setting} {text captured : Text} {index bound : Nat}
  {args values result : List Argument} {choice : Choice} {before : List Alternative}
  {a : Alternative} {limit : Float}

open Double

/-- The number of a limit is a number of its rank. -/
theorem rank_toFloat_limitNumber (h : limit.isNaN = false) :
    (limitNumber limit).toFloat.isNaN = false ∧ rank (limitNumber limit).toFloat = rank limit := by
  unfold limitNumber
  split
  · rename_i i hi
    split
    · rename_i hsmall
      have hkept : (Int64.ofInt i).toInt = i := Int64.toInt_ofInt_of_le (by omega) (by omega)
      rw [Number.toFloat, hkept]
      exact ⟨isNaN_ofInt hsmall, rank_ofInt_of_integral? hi hsmall⟩
    · exact ⟨h, rfl⟩
  · exact ⟨h, rfl⟩

/-- Numbers that are the same have one rank. -/
theorem rank_toFloat_of_same {m n : Number} (hn : n.toFloat.isNaN = false)
    (h : m.same n = true) : m.toFloat.isNaN = false ∧ rank m.toFloat = rank n.toFloat := by
  cases m with
  | int i =>
    cases n with
    | int j =>
      obtain rfl : i = j := by simpa [Number.same] using h
      exact ⟨hn, rfl⟩
    | float y => cases h
  | float x =>
    cases n with
    | int j => cases h
    | float y =>
      have hx : x.isNaN = false := isNaN_of_beq h
      exact ⟨hx, (beq_iff_rank_eq hx hn).mp h⟩

/-- **A number at the index of the choice wins over the limit; a value of another kind there is
rejected as contradicting it.** -/
theorem readChoice_own_value (text : Text) (index : Nat)
    (hmatched : Matched setting captured choice before a values)
    (hown : (Argument.at? values index).isMissing = false)
    (h : ∀ b ∈ choice.alternatives, b.text.length < bound) :
    (∃ n result, Argument.at? values index = .number n ∧
        readChoice text captured index bound (fun inner _ text => read setting inner text) []
          choice.alternatives h = .ok result ∧
        ∀ i, Argument.at? result i = Argument.at? values i) ∨
      (∀ n, Argument.at? values index ≠ .number n) ∧
        readChoice text captured index bound (fun inner _ text => read setting inner text) []
          choice.alternatives h = .error (contradiction text index) := by
  rw [readChoice_of_matched hmatched h]
  have houtcome := outcome_storeAlternative text index a.limit values
  generalize storeAlternative text index a.limit values [] = outcome at houtcome
  cases houtcome with
  | number hnumber hresult => exact .inl ⟨_, _, hnumber, rfl, hresult⟩
  | limit hmissing _ =>
    rw [hmissing] at hown
    cases hown
  | contradicted _ hkind => exact .inr ⟨hkind, rfl⟩

/-- A number that is read at the index of the choice is the value of the choice. -/
theorem readChoice_own_value_many :
    let setting : Setting := ⟨⟨"en".toList, none, some "US".toList, []⟩, 2024⟩
    let none : Alternative := ⟨0, false, "none".toList⟩
    let many : Alternative := ⟨1, true, "{0,number,integer} many".toList⟩
    Choice.parse? "0#none|1<{0,number,integer} many".toList = some ⟨[none, many]⟩ ∧
      Matched setting "5 many".toList ⟨[none, many]⟩ [none] many [.number (.int 5)] ∧
      ∃ h result, readChoice "5 many".toList "5 many".toList 0 32
          (fun inner _ text => read setting inner text) [] [none, many] h = .ok result ∧
        Argument.at? result 0 = .number (.int 5) := by
  intro setting none many
  have hnone : read setting none.text "5 many".toList =
      .error (expected "5 many".toList "none".toList) :=
    read_literal_other setting (by decide +kernel) rfl
  have hmany : read setting many.text "5 many".toList = .ok [.number (.int 5)] := by
    have hparse : Template.parse many.text = .ok ⟨many.text,
        [.placeholder ⟨0, some ⟨.number, some "integer".toList⟩⟩, .literal " many".toList]⟩ := by
      decide +kernel
    have hcut : cut? [.placeholder ⟨0, some ⟨.number, some "integer".toList⟩⟩,
        .literal " many".toList] "5 many".toList = some ["5".toList] := rfl
    rw [read_of_cut? hparse hcut]
    decide +kernel
  have hmatched : Matched setting "5 many".toList ⟨[none, many]⟩ [none] many
      [.number (.int 5)] :=
    ⟨⟨[], rfl⟩, by simpa using ⟨_, hnone⟩, hmany⟩
  have hshort : ∀ b ∈ [none, many], b.text.length < 32 := by decide
  refine ⟨by decide +kernel, hmatched, hshort, ?_⟩
  obtain ⟨n, result, -, hresult, hat⟩ | ⟨hkind, -⟩ :=
    readChoice_own_value "5 many".toList 0 hmatched rfl hshort
  · exact ⟨result, hresult, hat 0⟩
  · exact absurd rfl (hkind (.int 5))

/-- A text that is read at the index of the choice is rejected, although no other value is read. -/
theorem readChoice_untyped_value_rejected :
    let setting : Setting := ⟨⟨"en".toList, none, some "US".toList, []⟩, 2024⟩
    let none : Alternative := ⟨0, false, "none".toList⟩
    let many : Alternative := ⟨1, true, "{0} many".toList⟩
    Choice.parse? "0#none|1<{0} many".toList = some ⟨[none, many]⟩ ∧
      Matched setting "5 many".toList ⟨[none, many]⟩ [none] many [.text "5".toList] ∧
      ∃ h, readChoice "5 many".toList "5 many".toList 0 32
          (fun inner _ text => read setting inner text) [] [none, many] h =
        .error (contradiction "5 many".toList 0) := by
  intro setting none many
  have hnone : read setting none.text "5 many".toList =
      .error (expected "5 many".toList "none".toList) :=
    read_literal_other setting (by decide +kernel) rfl
  have hmany : read setting many.text "5 many".toList = .ok [.text "5".toList] := by
    have hparse : Template.parse many.text =
        .ok ⟨many.text, [.placeholder ⟨0, .none⟩, .literal " many".toList]⟩ := by
      decide +kernel
    have hcut : cut? [.placeholder ⟨0, .none⟩, .literal " many".toList] "5 many".toList =
        some ["5".toList] := rfl
    rw [read_of_cut? hparse hcut]
    rfl
  have hmatched : Matched setting "5 many".toList ⟨[none, many]⟩ [none] many [.text "5".toList] :=
    ⟨⟨[], rfl⟩, by simpa using ⟨_, hnone⟩, hmany⟩
  have hshort : ∀ b ∈ [none, many], b.text.length < 32 := by decide
  refine ⟨by decide +kernel, hmatched, hshort, ?_⟩
  -- the text stands at the index of the choice when the limit is to be stored there
  exact readChoice_of_matched hmatched hshort

/-- **What the number read from an alternative selects** when the alternative does not mention the
choice: the alternative itself if it admits its limit, and otherwise the one before it. -/
theorem select_of_readChoice {pattern : Text} (hparse : Choice.parse? pattern = some choice)
    (hmatched : Matched setting captured choice before a values)
    (hmention : ¬ Mentions index a.text) (h : ∀ b ∈ choice.alternatives, b.text.length < bound)
    (hread : readChoice text captured index bound (fun inner _ text => read setting inner text) args
      choice.alternatives h = .ok result) :
    ∃ n, Argument.at? result index = .number n ∧
      (n = limitNumber a.limit ∨ n.same (limitNumber a.limit) = true) ∧
      choice.select n.toFloat = (Choice.selectedAtLimit before a).text := by
  obtain ⟨after, hdivided⟩ := hmatched.divided
  have hascending := Choice.ascending_of_parse? hparse
  have ha : a.limit.isNaN = false := hascending.numbers a (by rw [hdivided]; simp)
  obtain ⟨hnumber, hrank⟩ := rank_toFloat_limitNumber ha
  rw [readChoice_of_matched hmatched h] at hread
  obtain ⟨merged, hmerged, hstore⟩ := bind_eq_ok_iff.mp hread
  -- the alternative gives the choice no value, so its limit is stored
  have hvalue := value_of_mergeAlternative hmerged
  rw [if_pos (Nat.zero_le _), Nat.sub_zero, at?_read_of_not_mentions hmention hmatched.reads]
    at hvalue
  rw [hvalue] at hstore
  obtain hstored | hsame := (at?_of_store hstore).1
  · exact ⟨_, hstored, .inl rfl, Choice.select_at_limit hascending hdivided hnumber hrank⟩
  · cases hn : Argument.at? result index with
    | number n =>
      rw [hn] at hsame
      obtain ⟨hn', hrank'⟩ := rank_toFloat_of_same hnumber hsame
      exact ⟨n, rfl, .inr hsame,
        Choice.select_at_limit hascending hdivided hn' (hrank'.trans hrank)⟩
    | missing => rw [hn] at hsame; cases hsame
    | text t => rw [hn] at hsame; cases hsame
    | date d => rw [hn] at hsame; cases hsame

/-- The limit of an alternative that admits it selects the alternative. -/
theorem select_of_readChoice_one :
    let setting : Setting := ⟨⟨"en".toList, none, some "US".toList, []⟩, 2024⟩
    let none : Alternative := ⟨0, false, "none".toList⟩
    let one : Alternative := ⟨1, false, "one".toList⟩
    Choice.parse? "0#none|1#one".toList = some ⟨[none, one]⟩ ∧
      Matched setting "one".toList ⟨[none, one]⟩ [none] one [] ∧ ¬ Mentions 0 one.text ∧
      ∃ h result n, readChoice "one".toList "one".toList 0 12
          (fun inner _ text => read setting inner text) [] [none, one] h = .ok result ∧
        Argument.at? result 0 = .number n ∧
        Choice.select ⟨[none, one]⟩ n.toFloat = one.text := by
  intro setting none one
  have hparse : Choice.parse? "0#none|1#one".toList = some ⟨[none, one]⟩ := by decide +kernel
  have hnone : read setting none.text "one".toList =
      .error (expected "one".toList "none".toList) :=
    read_literal_other setting (by decide +kernel) rfl
  have htemplate : Template.parse one.text = .ok ⟨one.text, [.literal one.text]⟩ := by
    decide +kernel
  have hone : read setting one.text "one".toList = .ok [] := read_literal_self setting htemplate
  have hmention : ¬ Mentions 0 one.text := not_mentions_of_placeholders_eq_nil htemplate rfl
  have hmatched : Matched setting "one".toList ⟨[none, one]⟩ [none] one [] :=
    ⟨⟨[], rfl⟩, by simpa using ⟨_, hnone⟩, hone⟩
  have hshort : ∀ b ∈ [none, one], b.text.length < 12 := by decide
  have hread : readChoice "one".toList "one".toList 0 12
      (fun inner _ text => read setting inner text) [] [none, one] hshort =
        .ok [.number (.int 1)] := by
    rw [readChoice_of_matched hmatched hshort]
    decide +kernel
  obtain ⟨n, hn, -, hselect⟩ := select_of_readChoice hparse hmatched hmention hshort hread
  exact ⟨hparse, hmatched, hmention, hshort, _, n, hread, hn, hselect⟩

/-- The limit of an alternative that excludes it selects the alternative before, although another
number, the least one above the limit, selects the alternative. -/
theorem select_of_readChoice_strict :
    let setting : Setting := ⟨⟨"en".toList, none, some "US".toList, []⟩, 2024⟩
    let none : Alternative := ⟨0, false, "none".toList⟩
    let many : Alternative := ⟨1, true, "many".toList⟩
    let more : Alternative := ⟨1.0000000000000002, true, "more".toList⟩
    Choice.parse? "0#none|1<many|1.0000000000000002<more".toList = some ⟨[none, many, more]⟩ ∧
      Matched setting "many".toList ⟨[none, many, more]⟩ [none] many [] ∧
      ¬ Mentions 0 many.text ∧
      ∃ h, readChoice "many".toList "many".toList 0 42
          (fun inner _ text => read setting inner text) [] [none, many, more] h =
            .ok [.number (.int 1)] ∧
        Choice.select ⟨[none, many, more]⟩ (Number.int 1).toFloat ≠ many.text ∧
        Choice.select ⟨[none, many, more]⟩ 1.0000000000000002 = many.text := by
  intro setting none many more
  have hnone : read setting none.text "many".toList =
      .error (expected "many".toList "none".toList) :=
    read_literal_other setting (by decide +kernel) rfl
  have htemplate : Template.parse many.text = .ok ⟨many.text, [.literal many.text]⟩ := by
    decide +kernel
  have hmany : read setting many.text "many".toList = .ok [] := read_literal_self setting htemplate
  have hmatched : Matched setting "many".toList ⟨[none, many, more]⟩ [none] many [] :=
    ⟨⟨[more], rfl⟩, by simpa using ⟨_, hnone⟩, hmany⟩
  have hshort : ∀ b ∈ [none, many, more], b.text.length < 42 := by decide
  refine ⟨by decide +kernel, hmatched, not_mentions_of_placeholders_eq_nil htemplate rfl, hshort,
    ?_, by decide +kernel, by decide +kernel⟩
  rw [readChoice_of_matched hmatched hshort]
  decide +kernel

end

end MessageCatalog.Message
