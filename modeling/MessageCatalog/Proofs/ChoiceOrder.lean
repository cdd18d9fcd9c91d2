import MessageCatalog.Choice
import MessageCatalog.Proofs.DoubleOrder
import Mathlib.Data.List.Basic
import Mathlib.Data.List.TakeWhile

/-!
# The order of alternatives

The alternatives of a choice stand in ascending order: by their limits, and at one limit the
alternative that admits it before the one that excludes it. Therefore a number is admitted by the
alternatives up to some place and by none after it, and it selects the last one that admits it.

## Main statements

* `ascending_of_parse?` : the alternatives of a choice ascend, and their limits are numbers
* `spells_of_parse?` : they stand between the bars of the pattern, in the same order
* `select_of_divided` : a number selects the last alternative that admits it
* `select_at_limit` : what the limit of an alternative selects
* `select_of_parse` : every value selects the last alternative whose condition it meets
-/

namespace MessageCatalog.Choice

open Double

/-! ## Section 1: Places -/

/-- The place of an alternative: its limit, and whether it is excluded. -/
def place (a : Alternative) : (ℤ ×ₗ ℤ ×ₗ ℤ) ×ₗ Bool := toLex (rank a.limit, a.strict)

/-- Alternatives whose limits are numbers, in ascending order. -/
structure Ascending (as : List Alternative) : Prop where
  numbers : ∀ a ∈ as, a.limit.isNaN = false
  ordered : as.Pairwise fun a b => place a < place b

section

variable {a b : Alternative} {x : Float} (ha : a.limit.isNaN = false)

include ha

theorem follows_iff (hb : b.limit.isNaN = false) : follows a b = true ↔ place a < place b := by
  unfold follows place
  rw [Bool.or_eq_true, Bool.and_eq_true, Bool.and_eq_true, decide_eq_true_iff,
    lt_iff_rank_lt ha hb, beq_iff_rank_eq hb ha, Prod.Lex.toLex_lt_toLex, Bool.lt_iff,
    Bool.not_eq_true', and_assoc, and_comm (a := b.strict = true), eq_comm (a := rank b.limit)]

/-- An alternative admits the numbers from its place on. -/
theorem admits_iff (hx : x.isNaN = false) :
    admits a x = true ↔ place a ≤ toLex (rank x, false) := by
  unfold admits place
  rw [Prod.Lex.toLex_le_toLex]
  cases hstrict : a.strict with
  | true =>
    rw [if_pos rfl, decide_eq_true_iff, lt_iff_rank_lt ha hx]
    simp
  | false =>
    rw [if_neg Bool.false_ne_true, decide_eq_true_iff, le_iff_rank_le ha hx, le_iff_lt_or_eq]
    simp

end

/-! ## Section 2: Reading gives ascending alternatives -/

theorem isNaN_of_readLimit? {t : Text} {limit : Float} (h : readLimit? t = some limit) :
    limit.isNaN = false := by
  unfold readLimit? at h
  split at h
  · rw [← Option.some.inj h]
    decide +kernel
  · split at h
    · rw [← Option.some.inj h]
      decide +kernel
    · simpa using (Option.filter_eq_some_iff.mp h).2

theorem isNaN_of_readAlternative? {part : Text} {a : Alternative}
    (h : readAlternative? part = some a) : a.limit.isNaN = false := by
  unfold readAlternative? at h
  split at h
  · cases h
  · obtain ⟨limit, hlimit, rfl⟩ := Option.map_eq_some_iff.mp h
    exact isNaN_of_readLimit? hlimit

theorem ascending_of_readFrom? {previous : Option Alternative} {parts : List Text}
    {as : List Alternative} (hprevious : ∀ p ∈ previous, p.limit.isNaN = false)
    (h : readFrom? previous parts = some as) : Ascending (previous.toList ++ as) := by
  induction parts generalizing previous as with
  | nil =>
    obtain rfl : [] = as := Option.some.inj h
    cases previous with
    | none => exact ⟨by simp, .nil⟩
    | some p => exact ⟨by simpa using hprevious, List.pairwise_singleton _ _⟩
  | cons part rest ih =>
    simp only [readFrom?, bind, Option.bind_eq_some_iff] at h
    obtain ⟨next, hnext, h⟩ := h
    split at h
    swap
    · cases h
    rename_i hfollows
    obtain ⟨others, hothers, h⟩ := Option.bind_eq_some_iff.mp h
    obtain rfl : next :: others = as := Option.some.inj h
    have hnumber := isNaN_of_readAlternative? hnext
    have hrest : Ascending (next :: others) := ih (by simpa using hnumber) hothers
    cases previous with
    | none => exact hrest
    | some p =>
      -- it is enough to compare with the next one, since the others come after that
      have hp : p.limit.isNaN = false := hprevious p rfl
      have hlt : place p < place next := (follows_iff hp hnumber).mp hfollows
      refine ⟨List.forall_mem_cons.mpr ⟨hp, hrest.numbers⟩, hrest.ordered.cons ?_⟩
      intro b hb
      obtain rfl | hlater := List.mem_cons.mp hb
      · exact hlt
      · exact hlt.trans ((List.pairwise_cons.mp hrest.ordered).1 b hlater)

/-- **The alternatives of a choice ascend.** -/
theorem ascending_of_parse? {pattern : Text} {choice : Choice} (h : parse? pattern = some choice) :
    Ascending choice.alternatives := by
  obtain ⟨as, has, rfl⟩ := Option.map_eq_some_iff.mp h
  exact ascending_of_readFrom? (by simp) has

/-! ## Section 3: The parts of a pattern -/

/-- **The way an alternative is written**: its limit, up to the first relation, the relation, and
its text. The limit is excluded where the relation is `<`. -/
inductive Spells : Text → Alternative → Prop
  | intro {limit : Text} {relation : Char} {a : Alternative}
      (hlimit : readLimit? (Text.trim limit) = some a.limit)
      (hfirst : ∀ c ∈ limit, c ∉ ['#', '<', '≤'])
      (hrelation : relation ∈ ['#', '<', '≤']) (hstrict : a.strict = true ↔ relation = '<') :
      Spells (limit ++ relation :: a.text) a

theorem isRelation_iff {c : Char} : isRelation c = true ↔ c ∈ ['#', '<', '≤'] := by
  simp [isRelation, or_assoc]

theorem spells_of_readAlternative? {part : Text} {a : Alternative}
    (h : readAlternative? part = some a) : Spells part a := by
  unfold readAlternative? at h
  split at h
  · cases h
  rename_i relation text hdrop
  obtain ⟨limit, hlimit, rfl⟩ := Option.map_eq_some_iff.mp h
  have hrelation : isRelation relation = true := by
    have hhead := List.head?_dropWhile_not (fun c => !isRelation c) part
    rw [hdrop] at hhead
    simpa using hhead
  have hfirst : ∀ c ∈ part.takeWhile fun c => !isRelation c, c ∉ ['#', '<', '≤'] := by
    intro c hc
    have hplain := List.mem_takeWhile_imp hc
    rw [← isRelation_iff]
    simpa using hplain
  rw [← List.takeWhile_append_dropWhile (p := fun c => !isRelation c) (l := part), hdrop]
  exact .intro (a := ⟨limit, relation == '<', text⟩) hlimit hfirst (isRelation_iff.mp hrelation)
    beq_iff_eq

theorem spells_of_readFrom? {previous : Option Alternative} {parts : List Text}
    {as : List Alternative} (h : readFrom? previous parts = some as) :
    List.Forall₂ Spells parts as := by
  induction parts generalizing previous as with
  | nil =>
    obtain rfl : [] = as := Option.some.inj h
    exact .nil
  | cons part rest ih =>
    simp only [readFrom?, bind, Option.bind_eq_some_iff] at h
    obtain ⟨next, hnext, h⟩ := h
    split at h
    swap
    · cases h
    obtain ⟨others, hothers, h⟩ := Option.bind_eq_some_iff.mp h
    obtain rfl : next :: others = as := Option.some.inj h
    exact .cons (spells_of_readAlternative? hnext) (ih hothers)

/-- **The alternatives of a choice stand between the bars of its pattern**, in the same order. -/
theorem spells_of_parse? {pattern : Text} {choice : Choice} (h : parse? pattern = some choice) :
    List.Forall₂ Spells (splitBars false 0 pattern) choice.alternatives := by
  obtain ⟨as, has, rfl⟩ := Option.map_eq_some_iff.mp h
  exact spells_of_readFrom? has

/-! ## Section 4: What a number selects -/

section

variable {choice : Choice} {before after : List Alternative} {a : Alternative} {x : Float}

theorem selectFrom_append {selected : Alternative} {admitted others : List Alternative}
    (hadmitted : ∀ b ∈ admitted, admits b x = true)
    (hothers : ∀ b ∈ others.head?, admits b x = false) :
    selectFrom selected x (admitted ++ others) = admitted.getLastD selected := by
  induction admitted generalizing selected with
  | nil =>
    cases others with
    | nil => rfl
    | cons b rest =>
      show (if admits b x = true then _ else selected) = selected
      rw [if_neg (by simpa using hothers b rfl)]
  | cons b rest ih =>
    have hb := hadmitted b List.mem_cons_self
    show (if admits b x = true then selectFrom b x (rest ++ others) else selected) = _
    rw [if_pos hb, ih fun c hc => hadmitted c (List.mem_cons_of_mem _ hc), List.getLastD_cons]

/-- **A number selects the last alternative that admits it**, and the first one when none does. -/
theorem select_of_divided {first : Alternative} {admitted others : List Alternative}
    (hfirst : choice.alternatives.head? = some first)
    (hdivided : choice.alternatives = admitted ++ others)
    (hadmitted : ∀ b ∈ admitted, admits b x = true)
    (hothers : ∀ b ∈ others.head?, admits b x = false) :
    choice.select x = (admitted.getLastD first).text := by
  unfold select
  rw [hdivided] at hfirst ⊢
  cases admitted with
  | nil =>
    obtain ⟨rest, rfl⟩ := List.head?_eq_some_iff.mp hfirst
    show (if admits first x = true then _ else first.text) = first.text
    rw [if_neg (by simpa using hothers first rfl)]
  | cons b later =>
    obtain rfl : b = first := Option.some.inj hfirst
    show (if admits b x = true then (selectFrom b x (later ++ others)).text else _) = _
    rw [if_pos (hadmitted b List.mem_cons_self), List.getLastD_cons,
      selectFrom_append (fun c hc => hadmitted c (List.mem_cons_of_mem _ hc)) hothers]

/-- At the limit of an alternative, what stands before it admits the number. -/
theorem admits_of_place_lt {b : Alternative} (hb : b.limit.isNaN = false) (hx : x.isNaN = false)
    (hlimit : rank x = rank a.limit) (h : place b < place a) : admits b x = true := by
  rw [admits_iff hb hx, hlimit, place, Prod.Lex.toLex_le_toLex]
  obtain hlower | ⟨hequal, hstrict⟩ := Prod.Lex.toLex_lt_toLex.mp h
  · exact .inl hlower
  · -- at one limit, admitting it comes just before excluding it
    exact .inr ⟨hequal, (Bool.lt_iff.mp hstrict).1.le⟩

/-- At the limit of an alternative, what stands after it does not admit the number. -/
theorem not_admits_of_lt_place {b : Alternative} (hb : b.limit.isNaN = false)
    (hx : x.isNaN = false) (hlimit : rank x = rank a.limit) (h : place a < place b) :
    admits b x = false := by
  rw [← Bool.not_eq_true, admits_iff hb hx, hlimit, not_le]
  refine lt_of_le_of_lt ?_ h
  exact Prod.Lex.toLex_le_toLex.mpr (.inr ⟨rfl, Bool.false_le _⟩)

theorem admits_at_limit (ha : a.limit.isNaN = false) (hx : x.isNaN = false)
    (hlimit : rank x = rank a.limit) : admits a x = !a.strict := by
  rw [Bool.eq_iff_iff, admits_iff ha hx, hlimit, place, Prod.Lex.toLex_le_toLex]
  cases a.strict <;> simp

/-- The alternative that the limit of an alternative selects: itself if it admits its limit, and
otherwise the one before it, if there is one. -/
def selectedAtLimit (before : List Alternative) (a : Alternative) : Alternative :=
  if a.strict then before.getLastD a else a

/-- **What the limit of an alternative selects.** -/
theorem select_at_limit (h : Ascending choice.alternatives)
    (hchoice : choice.alternatives = before ++ a :: after) (hx : x.isNaN = false)
    (hlimit : rank x = rank a.limit) :
    choice.select x = (selectedAtLimit before a).text := by
  rw [hchoice] at h
  obtain ⟨hbefore, hrest, hlt⟩ := List.pairwise_append.mp h.ordered
  have hnumber : ∀ b ∈ before ++ a :: after, b.limit.isNaN = false := h.numbers
  have hearlier : ∀ b ∈ before, admits b x = true := fun b hb =>
    admits_of_place_lt (hnumber b (by simp [hb])) hx hlimit (hlt b hb a List.mem_cons_self)
  have hlater : ∀ b ∈ after, admits b x = false := fun b hb =>
    not_admits_of_lt_place (hnumber b (by simp [hb])) hx hlimit
      ((List.pairwise_cons.mp hrest).1 b hb)
  have hself : admits a x = !a.strict := admits_at_limit (hnumber a (by simp)) hx hlimit
  unfold selectedAtLimit
  cases hstrict : a.strict with
  | true =>
    have hnot : ∀ b ∈ (a :: after).head?, admits b x = false := by
      intro b hb
      obtain rfl : a = b := Option.some.inj hb
      rw [hself, hstrict]
      rfl
    rw [if_pos rfl]
    cases before with
    | nil =>
      exact select_of_divided (by rw [hchoice]; rfl) hchoice hearlier hnot
    | cons b rest =>
      rw [List.getLastD_cons, ← List.getLastD_cons (a := b)]
      exact select_of_divided (by rw [hchoice]; rfl) hchoice hearlier hnot
  | false =>
    obtain ⟨first, hfirst⟩ : ∃ first, choice.alternatives.head? = some first := by
      rw [hchoice]
      cases before <;> exact ⟨_, rfl⟩
    have hlast : (before ++ [a]).getLastD first = a := List.getLastD_concat ..
    rw [if_neg Bool.false_ne_true, ← hlast]
    apply select_of_divided hfirst (hchoice.trans (List.append_cons before a after))
    · intro b hb
      obtain hb | hb := List.mem_append.mp hb
      · exact hearlier b hb
      · rw [List.mem_singleton.mp hb, hself, hstrict]
        rfl
    · intro b hb
      exact hlater b (List.mem_of_mem_head? hb)

end

/-! ## Section 5: What every value selects -/

/-- **The condition of an alternative**: the value is at least the limit, or above it where the
limit is excluded. -/
def Meets (x : Float) (a : Alternative) : Prop := if a.strict then x > a.limit else x ≥ a.limit

theorem admits_iff_meets {a : Alternative} {x : Float} : admits a x = true ↔ Meets x a := by
  unfold admits Meets
  cases a.strict <;> exact decide_eq_true_iff

instance (x : Float) : DecidablePred (Meets x) := fun _ => decidable_of_iff _ admits_iff_meets

theorem not_meets_of_isNaN {x : Float} (hx : x.isNaN = true) (a : Alternative) : ¬ Meets x a := by
  unfold Meets
  cases a.strict with
  | true => exact not_lt_of_isNaN hx
  | false => exact not_le_of_isNaN hx

/-- **With a condition every earlier one is met**, since the alternatives ascend. -/
theorem meets_of_meets_later {as : List Alternative} (h : Ascending as) (x : Float) :
    as.Pairwise fun a b => Meets x b → Meets x a := by
  cases hx : x.isNaN with
  | true => exact h.ordered.imp fun _ hb => absurd hb (not_meets_of_isNaN hx _)
  | false =>
    refine h.ordered.imp_of_mem fun {a b} ha hb hlt hmeets => ?_
    rw [← admits_iff_meets, admits_iff (h.numbers b hb) hx] at hmeets
    rw [← admits_iff_meets, admits_iff (h.numbers a ha) hx]
    exact hlt.le.trans hmeets

/-- What holds up to some place of a list is found by stopping where it fails for the first time. -/
theorem filter_eq_takeWhile {α : Type} {p : α → Bool} {l : List α}
    (h : l.Pairwise fun a b => p b = true → p a = true) : l.filter p = l.takeWhile p := by
  induction l with
  | nil => rfl
  | cons a l ih =>
    obtain ⟨hfirst, hrest⟩ := List.pairwise_cons.mp h
    cases ha : p a with
    | true => rw [List.filter_cons_of_pos ha, List.takeWhile_cons_of_pos ha, ih hrest]
    | false =>
      have hnone : ∀ b ∈ l, ¬ p b = true := fun b hb hpb => by simp [hfirst b hb hpb] at ha
      rw [List.filter_cons_of_neg (by simp [ha]), List.takeWhile_cons_of_neg (by simp [ha]),
        List.filter_eq_nil_iff.mpr hnone]

/-- **Every value selects the last alternative whose condition it meets**, in the order of the
pattern, and the first one if it meets none. Behind the first condition that is not met none is. -/
theorem select_of_parse {pattern : Text} {choice : Choice} (h : parse pattern = .ok choice)
    (x : Float) :
    List.Forall₂ Spells (splitBars false 0 pattern) choice.alternatives ∧
      (∃ first, choice.alternatives.head? = some first ∧
        choice.select x = ((choice.alternatives.filter (Meets x ·)).getLastD first).text) ∧
      choice.alternatives.Pairwise fun a b => ¬ Meets x a → ¬ Meets x b := by
  have hparse := parse?_of_parse h
  have hmonotone := meets_of_meets_later (ascending_of_parse? hparse) x
  refine ⟨spells_of_parse? hparse, ?_, hmonotone.imp fun hlater => mt hlater⟩
  obtain ⟨first, rest, hcons⟩ := List.exists_cons_of_ne_nil (alternatives_ne_nil hparse)
  have hfirst : choice.alternatives.head? = some first := by rw [hcons, List.head?_cons]
  refine ⟨first, hfirst, ?_⟩
  -- the walk stops at the first condition that is not met, so it passes all that are
  rw [filter_eq_takeWhile (hmonotone.imp fun hlater => by simpa using hlater)]
  apply select_of_divided hfirst List.takeWhile_append_dropWhile.symm
  · intro b hb
    have hmeets := List.mem_takeWhile_imp hb
    exact admits_iff_meets.mpr (by simpa using hmeets)
  · intro b hb
    have hunmet := List.head?_dropWhile_not (Meets x ·) choice.alternatives
    rw [hb] at hunmet
    rw [← Bool.not_eq_true, admits_iff_meets]
    simpa using hunmet

/-- One limit that is admitted and then excluded, written as the two zeros, and an infinite one: the
value zero, and one that is no number. -/
theorem select_of_parse_zeros :
    let low : Alternative := ⟨-1, false, "low".toList⟩
    let zero : Alternative := ⟨-0.0, false, "zero".toList⟩
    let plus : Alternative := ⟨0, true, "plus".toList⟩
    let far : Alternative := ⟨infinity, false, "far".toList⟩
    parse "-1#low|-0.0≤zero|0<plus|∞#far".toList = .ok ⟨[low, zero, plus, far]⟩ ∧
      Choice.select ⟨[low, zero, plus, far]⟩ 0 = zero.text ∧
      Choice.select ⟨[low, zero, plus, far]⟩ notANumber = low.text := by
  intro low zero plus far
  have hparse : parse "-1#low|-0.0≤zero|0<plus|∞#far".toList = .ok ⟨[low, zero, plus, far]⟩ := by
    decide +kernel
  obtain ⟨-, ⟨first, hfirst, hzero⟩, -⟩ := select_of_parse hparse 0
  obtain ⟨-, ⟨first', hfirst', hnan⟩, -⟩ := select_of_parse hparse notANumber
  obtain rfl : low = first := Option.some.inj hfirst
  obtain rfl : low = first' := Option.some.inj hfirst'
  refine ⟨hparse, hzero.trans ?_, hnan.trans ?_⟩ <;> decide +kernel

end MessageCatalog.Choice
