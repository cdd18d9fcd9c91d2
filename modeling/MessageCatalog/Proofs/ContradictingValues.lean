import MessageCatalog.Proofs.StoredArguments
import Mathlib.Data.List.Induction

/-!
# Values that contradict each other

Reading a message back stores one value for each placeholder, and an index that stands in several
placeholders must be given the same value each time. This module follows the storing of values in
turn: a value is compared with the one that was read first at its index.

## Main statements

* `outcome_storeAll` : storing values ends with the first value at each index, or at the first value
  that contradicts an earlier one
* `Outcome.exists_ok_iff` : values can be stored exactly when they do not contradict each other
* `Coherent.readType?_eq` : values of different types are never stored at one index
-/

namespace MessageCatalog

open Text

/-! ## Section 1: Types of values -/

namespace Argument

/-- The type of the placeholders, choices aside, that are read as such a value. -/
def readType? : Argument → Option ArgType
  | missing => none
  | text _ => some .untyped
  | number _ => some .number
  | date _ => some .date

theorem isMissing_of_readType? {value : Argument} {type : ArgType}
    (h : value.readType? = some type) : value.isMissing = false := by
  cases value with
  | missing => cases h
  | text t => rfl
  | number n => rfl
  | date d => rfl

theorem readType?_of_same {a b : Argument} (h : a.same b = true) : a.readType? = b.readType? := by
  cases a <;> cases b <;> first | rfl | cases h

end Argument

namespace Message

/-! ## Section 2: Values in the order they are read -/

/-- The value that was read first at an index. -/
def firstValue? (reads : List (Nat × Argument)) (index : Nat) : Option Argument :=
  (reads.find? fun e => e.1 == index).map Prod.snd

/-- The value differs from the one that was read first at its index. -/
-- only the first value counts, and it is not compared with itself: a double may differ from itself
def Contradicts (seen : List (Nat × Argument)) (e : Nat × Argument) : Prop :=
  ∃ first, firstValue? seen e.1 = some first ∧ first.same e.2 = false

/-- No value contradicts those that are read before it. -/
def Coherent (reads : List (Nat × Argument)) : Prop :=
  ∀ seen e, seen ++ [e] <+: reads → ¬Contradicts seen e

section

variable {reads : List (Nat × Argument)} {e : Nat × Argument} {index : Nat} {value : Argument}

theorem mem_of_firstValue? (h : firstValue? reads index = some value) : (index, value) ∈ reads := by
  obtain ⟨⟨i, v⟩, hfind, rfl⟩ := Option.map_eq_some_iff.mp h
  obtain rfl : i = index := by simpa using List.find?_some hfind
  exact List.mem_of_find?_eq_some hfind

theorem exists_firstValue?_of_mem (h : e ∈ reads) :
    ∃ first, firstValue? reads e.1 = some first := by
  unfold firstValue?
  cases hfind : reads.find? fun f => f.1 == e.1 with
  | some f => exact ⟨f.2, rfl⟩
  | none => simpa using List.find?_eq_none.mp hfind e h

theorem firstValue?_append_singleton (reads : List (Nat × Argument)) (e : Nat × Argument)
    (index : Nat) :
    firstValue? (reads ++ [e]) index =
      (firstValue? reads index).or (if e.1 = index then some e.2 else none) := by
  unfold firstValue?
  rw [List.find?_append]
  cases reads.find? fun e => e.1 == index with
  | some f => rfl
  | none =>
    by_cases h : e.1 = index
    · simp [h]
    · simp [h]

theorem coherent_nil : Coherent [] := by
  intro seen e h
  simp at h

theorem coherent_append_singleton :
    Coherent (reads ++ [e]) ↔ Coherent reads ∧ ¬Contradicts reads e := by
  constructor
  · intro h
    exact ⟨fun seen f hf => h seen f (hf.trans (List.prefix_append reads [e])),
      h reads e (List.prefix_refl _)⟩
  · rintro ⟨hreads, he⟩ seen f hf
    -- the value is the last one, or one of those before
    rcases List.prefix_concat_iff.mp hf with heq | hbefore
    · obtain ⟨rfl, hlast⟩ := List.append_inj' heq rfl
      obtain rfl : f = e := by simpa using hlast
      exact he
    · exact hreads seen f hbefore

theorem not_contradicts_of_none (h : firstValue? reads e.1 = none) : ¬Contradicts reads e := by
  rintro ⟨first, hfirst, _⟩
  cases h.symm.trans hfirst

theorem contradicts_iff_of_some (h : firstValue? reads e.1 = some value) :
    Contradicts reads e ↔ value.same e.2 = false := by
  constructor
  · rintro ⟨first, hfirst, hdiffers⟩
    obtain rfl : value = first := Option.some.inj (h.symm.trans hfirst)
    exact hdiffers
  · intro hdiffers
    exact ⟨value, h, hdiffers⟩

/-- Values at distinct indices do not contradict each other. -/
theorem coherent_of_nodup (h : (reads.map Prod.fst).Nodup) : Coherent reads := by
  rintro seen e hfront ⟨first, hfirst, _⟩
  have hnodup : ((seen ++ [e]).map Prod.fst).Nodup := h.sublist (hfront.sublist.map _)
  rw [List.map_append, List.nodup_append] at hnodup
  have hmem : e.1 ∈ seen.map Prod.fst := List.mem_map.mpr ⟨_, mem_of_firstValue? hfirst, rfl⟩
  exact hnodup.2.2 _ hmem _ (by simp) rfl

/-- Whatever is read at an index, the first value there is the value itself or the same. -/
theorem Coherent.exists_first (h : Coherent reads) (he : e ∈ reads) :
    ∃ first, firstValue? reads e.1 = some first ∧ (first = e.2 ∨ first.same e.2 = true) := by
  -- induction on the end: what has been read before keeps its first values
  induction reads using List.reverseRecOn with
  | nil => cases he
  | append_singleton seen last ih =>
    obtain ⟨hseen, hlast⟩ := coherent_append_singleton.mp h
    rw [firstValue?_append_singleton]
    rcases List.mem_append.mp he with hearlier | hhere
    · obtain ⟨first, hfirst, hsame⟩ := ih hseen hearlier
      exact ⟨first, by rw [hfirst]; rfl, hsame⟩
    · obtain rfl : e = last := by simpa using hhere
      cases hfirst : firstValue? seen e.1 with
      | none => exact ⟨e.2, by simp, .inl rfl⟩
      | some first =>
        rw [contradicts_iff_of_some hfirst, Bool.not_eq_false] at hlast
        exact ⟨first, rfl, .inr hlast⟩

/-- The first value at an index is of the type of all values there. -/
theorem Coherent.readType?_first (h : Coherent reads) (he : e ∈ reads)
    (hfirst : firstValue? reads e.1 = some value) : value.readType? = e.2.readType? := by
  obtain ⟨first, hsome, heq | hsame⟩ := h.exists_first he
  · obtain rfl : value = first := Option.some.inj (hfirst.symm.trans hsome)
    rw [heq]
  · obtain rfl : value = first := Option.some.inj (hfirst.symm.trans hsome)
    exact Argument.readType?_of_same hsame

/-- **Values of different types are never stored at one index.** -/
theorem Coherent.readType?_eq {f : Nat × Argument} (h : Coherent reads) (he : e ∈ reads)
    (hf : f ∈ reads) (hindex : e.1 = f.1) : e.2.readType? = f.2.readType? := by
  obtain ⟨first, hfirst⟩ := exists_firstValue?_of_mem he
  rw [← h.readType?_first he hfirst, h.readType?_first hf (hindex ▸ hfirst)]

end

/-! ## Section 3: Storing values -/

/-- The failure of a message that gives two values to one argument. -/
def contradiction (text : Text) (index : Nat) : FormatError :=
  .unparseable text s!"argument {index} reads as two different values"

/-- Store values in the order they are read. -/
def storeAll (text : Text) (reads : List (Nat × Argument)) : Except FormatError (List Argument) :=
  reads.foldlM (fun args e => store text args e.1 e.2) []

/-- How storing values ends. -/
inductive Outcome (text : Text) (reads : List (Nat × Argument)) :
    Except FormatError (List Argument) → Prop
  | stored {args : List Argument} (hcoherent : Coherent reads)
      (hargs : ∀ i, Argument.at? args i = (firstValue? reads i).getD .missing) :
      Outcome text reads (.ok args)
  | contradicted {seen : List (Nat × Argument)} {e : Nat × Argument}
      (hfront : seen ++ [e] <+: reads) (hseen : Coherent seen) (he : Contradicts seen e) :
      Outcome text reads (.error (contradiction text e.1))

section

variable {text : Text} {reads : List (Nat × Argument)} {args : List Argument} {index : Nat}
  {value : Argument}

/-- **What is stored where a value stands already**: nothing when it is the same, and the reading
fails otherwise. -/
theorem store_of_present (text : Text) (value : Argument)
    (hpresent : (Argument.at? args index).isMissing = false) :
    store text args index value =
      if (Argument.at? args index).same value = true then .ok args
      else .error (contradiction text index) := by
  have hlt : index < args.length := by
    by_contra hge
    rw [Argument.at?_of_length_le (Nat.le_of_not_lt hge)] at hpresent
    cases hpresent
  have hpad : args.rightpad (index + 1) .missing = args := by
    unfold List.rightpad
    rw [Nat.sub_eq_zero_of_le hlt]
    exact List.append_nil args
  unfold store Argument.store?
  simp only [hpad, hpresent, Bool.false_eq_true, if_false]
  by_cases hsame : (Argument.at? args index).same value = true
  · rw [if_pos hsame, if_pos hsame]
  · rw [if_neg hsame, if_neg hsame]
    rfl

theorem storeAll_append_singleton (text : Text) (reads : List (Nat × Argument))
    (e : Nat × Argument) :
    storeAll text (reads ++ [e]) =
      storeAll text reads >>= fun args => store text args e.1 e.2 := by
  unfold storeAll
  rw [List.foldlM_append]
  apply congrArg
  funext args
  rw [List.foldlM_cons]
  simp

/-- One more value, after values that do not contradict each other. -/
theorem outcome_store {seen : List (Nat × Argument)} {e : Nat × Argument} (text : Text)
    (hpresent : ∀ f ∈ seen, f.2.isMissing = false) (hcoherent : Coherent seen)
    (hargs : ∀ i, Argument.at? args i = (firstValue? seen i).getD .missing) :
    Outcome text (seen ++ [e]) (store text args e.1 e.2) := by
  cases hfirst : firstValue? seen e.1 with
  | none =>
    -- nothing stands at the index, so the value becomes the first one there
    have hmissing : Argument.at? args e.1 = .missing := by rw [hargs, hfirst]; rfl
    obtain ⟨next, hstore, _, hnext⟩ := store_of_missing text e.2 hmissing
    rw [hstore]
    apply Outcome.stored
    · exact coherent_append_singleton.mpr ⟨hcoherent, not_contradicts_of_none hfirst⟩
    · intro i
      rw [hnext, firstValue?_append_singleton]
      by_cases hi : i = e.1
      · subst hi
        simp [hfirst]
      · rw [if_neg hi, if_neg (Ne.symm hi), Option.or_none, hargs]
  | some first =>
    have hat : Argument.at? args e.1 = first := by rw [hargs, hfirst]; rfl
    have hthere : (Argument.at? args e.1).isMissing = false := by
      rw [hat]
      exact hpresent _ (mem_of_firstValue? hfirst)
    rw [store_of_present text e.2 hthere, hat]
    cases hsame : first.same e.2 with
    | false =>
      have hcontradicts : Contradicts seen e := (contradicts_iff_of_some hfirst).mpr hsame
      exact .contradicted (List.prefix_refl _) hcoherent hcontradicts
    | true =>
      -- nothing is stored, and the first value at every index is the one it was
      apply Outcome.stored
      · refine coherent_append_singleton.mpr ⟨hcoherent, ?_⟩
        simp [contradicts_iff_of_some hfirst, hsame]
      · intro i
        rw [hargs, firstValue?_append_singleton]
        by_cases hi : e.1 = i
        · subst hi
          rw [hfirst]
          rfl
        · rw [if_neg hi, Option.or_none]

/-- **Storing values ends with the first value at each index, or at the first value that contradicts
an earlier one.** -/
theorem outcome_storeAll (text : Text) (hpresent : ∀ e ∈ reads, e.2.isMissing = false) :
    Outcome text reads (storeAll text reads) := by
  induction reads using List.reverseRecOn with
  | nil =>
    apply Outcome.stored coherent_nil
    intro i
    exact Argument.at?_of_length_le (Nat.zero_le i)
  | append_singleton seen e ih =>
    have hearlier : ∀ f ∈ seen, f.2.isMissing = false := fun f hf =>
      hpresent f (List.mem_append_left _ hf)
    have hseen := ih hearlier
    rw [storeAll_append_singleton]
    generalize storeAll text seen = result at hseen
    cases hseen with
    | stored hcoherent hargs => exact outcome_store text hearlier hcoherent hargs
    | contradicted hfront hbefore hf =>
      -- a reading that has failed stays so
      exact .contradicted (hfront.trans (List.prefix_append seen [e])) hbefore hf

theorem Outcome.exists_ok_iff {result : Except FormatError (List Argument)}
    (h : Outcome text reads result) : (∃ args, result = .ok args) ↔ Coherent reads := by
  cases h with
  | stored hcoherent _ => exact ⟨fun _ => hcoherent, fun _ => ⟨_, rfl⟩⟩
  | contradicted hfront _ he =>
    constructor
    · rintro ⟨args, hargs⟩
      cases hargs
    · intro hcoherent
      exact absurd he (hcoherent _ _ hfront)

end

end Message

end MessageCatalog
