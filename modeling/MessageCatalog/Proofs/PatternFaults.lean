import MessageCatalog.Proofs.ExplicitPatterns
import Mathlib.Algebra.Ring.Parity
import Mathlib.Data.List.TakeWhile

/-!
# Faults of date patterns

A date pattern is at fault by itself, whatever date is to be written and whatever text is to be
read. Its fault is the first letter that asks for no field, counting only letters with an even
number of quotes before them; failing that, an odd number of quotes. Writing reports the fault at
once. Reading may stop before, at a text that does not follow the pattern, but it reports no other
fault, and it never succeeds.

## Main statements

* `outcome_scan` : the tokens of a pattern hold the first of its letters that asks for no field
* `fault?_eq_some_iff` : what is wrong with a pattern
* `error_of_read` : what reading reports
* `faults_agree` : writing and reading agree on the faults of a pattern
-/

namespace MessageCatalog.DatePattern

open Text

/-! ## Section 1: What can be wrong with a pattern -/

/-- The letters that ask for a field. -/
def fieldLetters : List Char := "yMLdEHkhKmsSa".toList

/-- Every letter outside quotes asks for a field. An even number of quotes before it leaves it
outside. -/
def AreKnown (t : Text) : Prop :=
  ∀ before c after, t = before ++ c :: after → Even (before.count '\'') → isLetter c = true →
    c ∈ fieldLetters

/-- **The fault of a pattern**: the first letter outside quotes that asks for no field, or else an
odd number of quotes. -/
inductive FaultOf (source : Text) : String → Prop
  | letter {before after : Text} {c : Char} (hsource : source = before ++ c :: after)
      (hplain : Even (before.count '\'')) (hletter : isLetter c = true)
      (hunknown : c ∉ fieldLetters) (hfirst : AreKnown before) : FaultOf source (unknownReason c)
  | quote (hknown : AreKnown source) (hopen : Odd (source.count '\'')) :
      FaultOf source openQuoteReason

theorem ofLetter?_eq_none_iff {c : Char} : DateField.ofLetter? c = none ↔ c ∉ fieldLetters := by
  constructor
  · intro h hc
    have hfields : fieldLetters.all fun d => (DateField.ofLetter? d).isSome := by decide
    have hsome := List.all_eq_true.mp hfields c hc
    rw [h] at hsome
    cases hsome
  · intro hc
    unfold DateField.ofLetter?
    split
    case h_14 => rfl
    all_goals exact absurd (by decide) hc

/-! ## Section 2: The first unknown letter -/

/-- Whether a place is in quotes, from whether the text before it begins in quotes. -/
def quotedAfter (inQuote : Bool) (t : Text) : Bool :=
  t.foldl (fun quoted c => if c = '\'' then !quoted else quoted) inQuote

theorem quotedAfter_cons (inQuote : Bool) (c : Char) (t : Text) :
    quotedAfter inQuote (c :: t) = quotedAfter (if c = '\'' then !inQuote else inQuote) t := rfl

theorem quotedAfter_eq (inQuote : Bool) (t : Text) :
    quotedAfter inQuote t = (inQuote ^^ decide (Odd (t.count '\''))) := by
  induction t generalizing inQuote with
  | nil => simp [quotedAfter]
  | cons c cs ih =>
    rw [quotedAfter_cons, ih]
    by_cases hc : c = '\''
    · subst hc
      rw [if_pos rfl, List.count_cons_self]
      simp only [Nat.odd_add_one, decide_not, Bool.not_xor, Bool.xor_not]
    · rw [if_neg hc, List.count_cons_of_ne hc]

theorem quotedAfter_append_of_not_mem (inQuote : Bool) {run : Text} (h : '\'' ∉ run) (t : Text) :
    quotedAfter inQuote (run ++ t) = quotedAfter inQuote t := by
  induction run with
  | nil => rfl
  | cons c run ih =>
    rw [List.mem_cons, not_or] at h
    rw [List.cons_append, quotedAfter_cons, if_neg (Ne.symm h.1), ih h.2]

/-- Every letter outside quotes asks for a field, in a text that may begin in quotes. -/
def AreKnownFrom (inQuote : Bool) (t : Text) : Prop :=
  ∀ before c after, t = before ++ c :: after → quotedAfter inQuote before = false →
    isLetter c = true → c ∈ fieldLetters

theorem quotedAfter_eq_true_iff {t : Text} : quotedAfter false t = true ↔ Odd (t.count '\'') := by
  rw [quotedAfter_eq, Bool.false_xor, decide_eq_true_iff]

theorem quotedAfter_eq_false_iff {t : Text} :
    quotedAfter false t = false ↔ Even (t.count '\'') := by
  rw [← Bool.not_eq_true, quotedAfter_eq_true_iff, Nat.not_odd_iff_even]

theorem areKnownFrom_false_iff {t : Text} : AreKnownFrom false t ↔ AreKnown t := by
  simp only [AreKnownFrom, AreKnown, quotedAfter_eq_false_iff]

theorem AreKnownFrom.cons {inQuote : Bool} {c : Char} {t : Text}
    (hc : inQuote = false → isLetter c = true → c ∈ fieldLetters)
    (ht : AreKnownFrom (if c = '\'' then !inQuote else inQuote) t) :
    AreKnownFrom inQuote (c :: t) := by
  intro before d after hsplit hplain hletter
  cases before with
  | nil =>
    obtain ⟨rfl, -⟩ := List.cons.inj hsplit
    exact hc hplain hletter
  | cons e before =>
    obtain ⟨rfl, hrest⟩ := List.cons.inj hsplit
    exact ht before d after hrest hplain hletter

/-- **The first letter outside quotes that asks for no field**, if there is one, in a text that may
begin in quotes. -/
inductive FirstUnknown (inQuote : Bool) (t : Text) : Option Char → Prop
  | unknown {before after : Text} {c : Char} (hsplit : t = before ++ c :: after)
      (hplain : quotedAfter inQuote before = false) (hletter : isLetter c = true)
      (hunknown : c ∉ fieldLetters) (hfirst : AreKnownFrom inQuote before) :
      FirstUnknown inQuote t (some c)
  | none (h : AreKnownFrom inQuote t) : FirstUnknown inQuote t none

/-- The first one is the same behind a character that is not one. -/
theorem FirstUnknown.cons {inQuote : Bool} {c : Char} {t : Text} {first : Option Char}
    (hc : inQuote = false → isLetter c = true → c ∈ fieldLetters)
    (h : FirstUnknown (if c = '\'' then !inQuote else inQuote) t first) :
    FirstUnknown inQuote (c :: t) first := by
  cases h with
  | @unknown before after d hsplit hplain hletter hunknown hfirst =>
    have hsplit : c :: t = (c :: before) ++ d :: after := congrArg (c :: ·) hsplit
    exact .unknown hsplit hplain hletter hunknown (.cons hc hfirst)
  | none h => exact .none (.cons hc h)

theorem FirstUnknown.quote {inQuote : Bool} {t : Text} {first : Option Char}
    (h : FirstUnknown (!inQuote) t first) : FirstUnknown inQuote ('\'' :: t) first := by
  refine .cons (fun _ hletter => absurd hletter (by decide)) ?_
  rwa [if_pos rfl]

theorem FirstUnknown.append {run t : Text} {first : Option Char}
    (hrun : ∀ c ∈ run, c ∈ fieldLetters) (h : FirstUnknown false t first) :
    FirstUnknown false (run ++ t) first := by
  induction run with
  | nil => exact h
  | cons c run ih =>
    obtain ⟨hc, hrest⟩ := List.forall_mem_cons.mp hrun
    have hquote : c ≠ '\'' := fun he => absurd (he ▸ hc) (by decide)
    refine .cons (fun _ _ => hc) ?_
    rw [if_neg hquote]
    exact ih hrest

/-- There is one first unknown letter, or none. -/
theorem FirstUnknown.unique {inQuote : Bool} {t : Text} {first first' : Option Char}
    (h : FirstUnknown inQuote t first) (h' : FirstUnknown inQuote t first') : first = first' := by
  -- of two different ones the earlier would be known, as it stands before the other
  have hknown {before before' after after' : Text} {c c' : Char}
      (hsplit : t = before ++ c :: after) (hsplit' : t = before' ++ c' :: after')
      (hplain : quotedAfter inQuote before = false) (hletter : isLetter c = true)
      (hunknown : c ∉ fieldLetters) (hfirst' : AreKnownFrom inQuote before') {front : Text}
      (hfront : before' = before ++ front) (htail : c :: after = front ++ c' :: after') :
      c = c' := by
    cases front with
    | nil => exact (List.cons.inj htail).1
    | cons d front =>
      obtain ⟨rfl, -⟩ := List.cons.inj htail
      exact absurd (hfirst' before c front hfront hplain hletter) hunknown
  cases h with
  | none h =>
    cases h' with
    | none _ => rfl
    | unknown hsplit hplain hletter hunknown _ =>
      exact absurd (h _ _ _ hsplit hplain hletter) hunknown
  | unknown hsplit hplain hletter hunknown hfirst =>
    cases h' with
    | none h' => exact absurd (h' _ _ _ hsplit hplain hletter) hunknown
    | unknown hsplit' hplain' hletter' hunknown' hfirst' =>
      rcases List.append_eq_append_iff.mp (hsplit.symm.trans hsplit') with
        ⟨front, hfront, htail⟩ | ⟨front, hfront, htail⟩
      · rw [hknown hsplit hsplit' hplain hletter hunknown hfirst' hfront htail]
      · rw [hknown hsplit' hsplit hplain' hletter' hunknown' hfirst hfront htail]

/-! ## Section 3: The fault that the tokens tell -/

/-- **The tokens of a pattern hold the first of its letters that asks for no field.** -/
theorem outcome_scan (inQuote : Bool) (t : Text) :
    FirstUnknown inQuote t (unknownIn? (scan inQuote t).1) ∧
      (scan inQuote t).2 = quotedAfter inQuote t := by
  fun_induction scan inQuote t with
  | case1 inQuote => exact ⟨.none fun before c after h => by simp at h, rfl⟩
  | case2 inQuote cs tokens quoteOpen hscan ih =>
    -- of two quotes the second one undoes the first one
    rw [hscan, ← Bool.not_not inQuote] at ih
    rw [quotedAfter_cons, quotedAfter_cons, if_pos rfl, if_pos rfl]
    exact ⟨.quote (.quote ih.1), ih.2⟩
  | case3 inQuote cs hdoubled ih =>
    rw [quotedAfter_cons, if_pos rfl]
    exact ⟨.quote ih.1, ih.2⟩
  | case4 inQuote c cs hdoubled hquote hliteral tokens quoteOpen hscan ih =>
    rw [hscan] at ih
    rw [quotedAfter_cons, if_neg hquote]
    refine ⟨.cons (fun hplain hletter => ?_) (by rw [if_neg hquote]; exact ih.1), ih.2⟩
    rw [hplain, hletter] at hliteral
    cases hliteral
  | case5 inQuote c cs hdoubled hquote hletter count rest token tokens quoteOpen hscan ih =>
    obtain ⟨rfl, hc⟩ : inQuote = false ∧ isLetter c = true := by simpa using hletter
    rw [hscan] at ih
    have hrun : ∀ d ∈ c :: cs.takeWhile (· == c), d = c := by
      intro d hd
      rcases List.mem_cons.mp hd with rfl | hd
      · rfl
      · simpa using List.mem_takeWhile_imp hd
    have hsplit : c :: cs = (c :: cs.takeWhile (· == c)) ++ rest := by
      rw [List.cons_append, List.takeWhile_append_dropWhile]
    rw [hsplit, quotedAfter_append_of_not_mem _ fun hmem => hquote (hrun _ hmem).symm]
    refine ⟨?_, ih.2⟩
    cases hfield : DateField.ofLetter? c with
    | none =>
      have htoken : token = .unknown c := by
        unfold token
        rw [hfield]
      rw [htoken]
      exact .unknown (List.nil_append _).symm rfl hc (ofLetter?_eq_none_iff.mp hfield)
        fun _ _ _ h => by simp at h
    | some field =>
      have htoken : token = .field field count (rest.head?.any isLetter) := by
        unfold token
        rw [hfield]
      have hknown : c ∈ fieldLetters := by
        by_contra hunknown
        rw [ofLetter?_eq_none_iff.mpr hunknown] at hfield
        cases hfield
      rw [htoken]
      exact .append (fun d hd => hrun d hd ▸ hknown) ih.1

/-- **What is wrong with a pattern** is its fault. -/
theorem fault?_eq_some_iff {source : Text} {reason : String} :
    (parse source).fault? = some reason ↔ FaultOf source reason := by
  obtain ⟨hfirst, hopen⟩ := outcome_scan false source
  have htokens : (parse source).tokens = (scan false source).1 := rfl
  have hquotes : (parse source).quoteOpen = quotedAfter false source := hopen
  rw [fault?, unknown?, htokens, hquotes]
  constructor
  · intro h
    generalize unknownIn? (scan false source).1 = first at hfirst h
    cases hfirst with
    | unknown hsplit hplain hletter hunknown hfirst =>
      obtain rfl := Option.some.inj h
      exact .letter hsplit (quotedAfter_eq_false_iff.mp hplain) hletter hunknown
        (areKnownFrom_false_iff.mp hfirst)
    | none hknown =>
      obtain ⟨hodd, rfl⟩ : quotedAfter false source = true ∧ openQuoteReason = reason := by
        simpa using h
      exact .quote (areKnownFrom_false_iff.mp hknown) (quotedAfter_eq_true_iff.mp hodd)
  · rintro (⟨hsplit, hplain, hletter, hunknown, hbefore⟩ | ⟨hknown, hodd⟩)
    · rw [hfirst.unique (.unknown hsplit (quotedAfter_eq_false_iff.mpr hplain) hletter hunknown
        (areKnownFrom_false_iff.mpr hbefore))]
    · rw [hfirst.unique (.none (areKnownFrom_false_iff.mpr hknown))]
      exact if_pos (quotedAfter_eq_true_iff.mpr hodd)

/-! ## Section 4: What reading reports -/

section

variable {currentYear : Int} {names : CalendarNames} {source text : Text} {e : FormatError}

theorem unparseable_of_takeChar {c : Char} {rest : Text} (h : takeChar text c rest = .error e) :
    ∃ reason, e = .unparseable text reason := by
  unfold takeChar at h
  split at h
  · split at h
    · cases h
    · exact ⟨_, (Except.error.inj h).symm⟩
  · exact ⟨_, (Except.error.inj h).symm⟩

theorem unparseable_of_takeNumber {width : Option Nat} {rest : Text}
    (h : takeNumber text width rest = .error e) : ∃ reason, e = .unparseable text reason := by
  unfold takeNumber at h
  cases width
  all_goals
    dsimp only at h
    split at h
    · exact ⟨_, (Except.error.inj h).symm⟩
    · split at h
      · cases h
      · exact ⟨_, (Except.error.inj h).symm⟩

theorem unparseable_of_takeName {list : List Text} {rest : Text}
    (h : takeName text list rest = .error e) : ∃ reason, e = .unparseable text reason := by
  unfold takeName at h
  split at h
  · cases h
  · exact ⟨_, (Except.error.inj h).symm⟩

/-- A token is refused because it is an unknown letter, or because the text does not follow it. -/
theorem error_of_readToken {token : DateToken} {state : DateReading × Text}
    (h : readToken currentYear names source text token state = .error e) :
    (∃ letter, token = .unknown letter ∧ e = .datePattern source (unknownReason letter)) ∨
      ∃ reason, e = .unparseable text reason := by
  cases token with
  | literal c => exact .inr (unparseable_of_takeChar (map_eq_error_iff.mp h))
  | field field count abuts =>
    right
    simp only [readToken] at h
    split at h
    · exact unparseable_of_takeName (map_eq_error_iff.mp h)
    · exact unparseable_of_takeNumber (map_eq_error_iff.mp h)
  | unknown letter => exact .inl ⟨letter, rfl, (Except.error.inj h).symm⟩

/-- Tokens are refused because of their first unknown letter, or because the text does not follow
them. -/
theorem error_of_readTokens {tokens : List DateToken} {state : DateReading × Text}
    (h : readTokens currentYear names source text tokens state = .error e) :
    (∃ letter, unknownIn? tokens = some letter ∧
        e = .datePattern source (unknownReason letter)) ∨
      ∃ reason, e = .unparseable text reason := by
  induction tokens generalizing state with
  | nil => cases h
  | cons token tokens ih =>
    unfold readTokens at h
    split at h
    · -- what has been read is no unknown letter, so the first one is among the other tokens
      rename_i next hnext
      refine (ih h).imp_left fun ⟨letter, hletter, he⟩ => ⟨letter, ?_, he⟩
      cases token with
      | literal c => exact hletter
      | field field count abuts => exact hletter
      | unknown letter => cases hnext
    · rename_i e' he'
      obtain rfl := Except.error.inj h
      refine (error_of_readToken he').imp_left fun ⟨letter, htoken, he⟩ => ⟨letter, ?_, he⟩
      rw [htoken]
      rfl

/-- Tokens that are read hold no unknown letter. -/
theorem unknownIn?_of_readTokens {tokens : List DateToken} {state next : DateReading × Text}
    (h : readTokens currentYear names source text tokens state = .ok next) :
    unknownIn? tokens = none := by
  induction tokens generalizing state with
  | nil => rfl
  | cons token tokens ih =>
    unfold readTokens at h
    split at h
    · rename_i between hbetween
      cases token with
      | literal c => exact ih h
      | field field count abuts => exact ih h
      | unknown letter => cases hbetween
    · cases h

/-- **What reading reports** is the fault of the pattern, or that the text cannot be read. -/
theorem error_of_read {p : DatePattern} (h : p.read currentYear names text = .error e) :
    (∃ reason, p.fault? = some reason ∧ e = .datePattern p.source reason) ∨
      ∃ reason, e = .unparseable text reason := by
  unfold DatePattern.read at h
  cases hread : readTokens currentYear names p.source text p.tokens (DateReading.start, text) with
  | error e' =>
    rw [hread] at h
    obtain rfl : e' = e := Except.error.inj h
    refine (error_of_readTokens hread).imp_left fun ⟨letter, hletter, he⟩ => ?_
    exact ⟨unknownReason letter, by rw [fault?, unknown?, hletter], he⟩
  | ok state =>
    rw [hread] at h
    simp only [bind, Except.bind] at h
    split at h
    · -- the whole pattern has been read, so nothing but its open quote is wrong
      rename_i hopen
      refine .inl ⟨openQuoteReason, ?_, (Except.error.inj h).symm⟩
      rw [fault?, unknown?, unknownIn?_of_readTokens hread]
      exact if_pos hopen
    · split at h
      · exact .inr ⟨_, (Except.error.inj h).symm⟩
      · split at h
        · cases h
        · exact .inr ⟨_, (Except.error.inj h).symm⟩

end

/-! ## Section 5: Agreement -/

/-- **Writing and reading agree on the faults of a pattern.** A pattern of which one date cannot be
written is written for no date, for the same reason, and reads no text; what reading reports as
wrong with a pattern is what writing reports of it for every date; and that is the fault of the
pattern. -/
theorem faults_agree (source : Text) (names : CalendarNames) :
    (∀ v e, (parse source).format v names = .error e →
      (∀ v', (parse source).format v' names = .error e) ∧
        ∀ currentYear text value, (parse source).read currentYear names text ≠ .ok value) ∧
    (∀ currentYear text pattern reason,
      (parse source).read currentYear names text = .error (.datePattern pattern reason) →
        ∀ v, (parse source).format v names = .error (.datePattern pattern reason)) ∧
    ∀ v pattern reason, (parse source).format v names = .error (.datePattern pattern reason) ↔
      pattern = source ∧ FaultOf source reason := by
  refine ⟨?_, ?_, ?_⟩
  · intro v e h
    obtain ⟨reason, hfault, he⟩ := format_eq_error_iff.mp h
    refine ⟨fun v' => format_eq_error_iff.mpr ⟨reason, hfault, he⟩, ?_⟩
    intro currentYear text value hread
    obtain ⟨e', he'⟩ := read_of_fault hfault currentYear names text
    rw [hread] at he'
    cases he'
  · intro currentYear text pattern reason h v
    rcases error_of_read h with ⟨reason', hfault, he⟩ | ⟨reason', he⟩
    · exact format_eq_error_iff.mpr ⟨reason', hfault, he⟩
    · cases he
  · intro v pattern reason
    have hsource : (parse source).source = source := rfl
    rw [format_eq_error_iff]
    constructor
    · rintro ⟨reason', hfault, he⟩
      obtain ⟨rfl, rfl⟩ := FormatError.datePattern.inj he
      exact ⟨hsource, fault?_eq_some_iff.mp hfault⟩
    · rintro ⟨rfl, hfault⟩
      exact ⟨reason, fault?_eq_some_iff.mpr hfault, rfl⟩

/-- A letter that asks for no field, behind another one in quotes and before an open quote: one text
shows it, and another one does not come that far. -/
theorem faults_agree_unknown :
    let source : Text := "d 'q' q 'x".toList
    let names : CalendarNames := .ofLocale ⟨"en".toList, none, none, []⟩
    let e : FormatError := .datePattern source (unknownReason 'q')
    (parse source).read 2026 names "9 q ".toList = .error e ∧
      (parse source).read 2026 names "q".toList =
        .error (.unparseable "q".toList "expected digits") ∧
      (∀ v, (parse source).format v names = .error e) ∧ FaultOf source (unknownReason 'q') ∧
      ∀ currentYear text value, (parse source).read currentYear names text ≠ .ok value := by
  intro source names e
  obtain ⟨hformat, hread, hfault⟩ := faults_agree source names
  have hshown : (parse source).read 2026 names "9 q ".toList = .error e := by decide +kernel
  have hwritten : ∀ v, (parse source).format v names = .error e := hread 2026 _ _ _ hshown
  let v : DateTime := .ofDate ⟨2024, 3, 9, by decide, by decide⟩
  exact ⟨hshown, by decide +kernel, hwritten, ((hfault v _ _).mp (hwritten v)).2,
    (hformat v e (hwritten v)).2⟩

end MessageCatalog.DatePattern
