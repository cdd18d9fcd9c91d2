import MessageCatalog.Proofs.MessagePieces
import Mathlib.Data.List.Forall2
import Mathlib.Data.List.GetD

/-!
# Arguments read from untyped placeholders

An untyped placeholder takes its piece of a message as a text argument. This module says what a list
of arguments holds after such pieces have been stored at distinct indices, and that formatting with
these arguments writes the same pieces again.

## Main statements

* `store_of_missing` : storing where nothing is stored changes that index only
* `exists_foldlM_readPiece` : the pieces of untyped placeholders of distinct indices are all stored
* `mapM_written_of_holds` : arguments that hold some pieces are written as these pieces
* `eq_mentioned` : the arguments of a list of placeholders are determined by what they hold
-/

namespace MessageCatalog

/-! ## Section 1: Lists of arguments -/

namespace Argument

theorem at?_of_length_le {args : List Argument} {index : Nat} (h : args.length ≤ index) :
    at? args index = missing := by
  unfold at?
  exact List.getD_eq_default _ _ h

/-- Missing values at the end change no argument. -/
theorem at?_rightpad (args : List Argument) (n index : Nat) :
    at? (args.rightpad n missing) index = at? args index := by
  unfold at? List.rightpad
  by_cases h : index < args.length
  · exact List.getD_append _ _ _ _ h
  · -- beyond the end the padding is missing as well
    have hle : args.length ≤ index := Nat.le_of_not_lt h
    rw [List.getD_append_right _ _ _ _ hle, List.getD_eq_default _ _ hle,
      List.getD_eq_getElem?_getD, List.getElem?_replicate]
    split <;> rfl

theorem at?_set {args : List Argument} {index : Nat} (h : index < args.length) (value : Argument)
    (i : Nat) : at? (args.set index value) i = if i = index then value else at? args i := by
  unfold at?
  rw [List.getD_eq_getElem?_getD, List.getD_eq_getElem?_getD]
  by_cases hi : i = index
  · subst hi
    rw [if_pos rfl, List.getElem?_set_self h]
    rfl
  · rw [if_neg hi, List.getElem?_set_ne (Ne.symm hi)]

end Argument

namespace Message

open Text Segment

/-- **Storing where nothing is stored changes that index only.** -/
theorem store_of_missing {args : List Argument} {index : Nat} (text : Text) (value : Argument)
    (h : Argument.at? args index = .missing) :
    ∃ result, store text args index value = .ok result ∧
      result.length = max args.length (index + 1) ∧
      ∀ i, Argument.at? result i = if i = index then value else Argument.at? args i := by
  have hpad : Argument.at? (args.rightpad (index + 1) .missing) index = .missing := by
    rw [Argument.at?_rightpad, h]
  have hlength : (args.rightpad (index + 1) .missing).length = max args.length (index + 1) := by
    rw [List.length_rightpad, Nat.max_comm]
  refine ⟨(args.rightpad (index + 1) .missing).set index value, ?_, ?_, ?_⟩
  · unfold store
    rw [Argument.store_fresh (by rw [hpad]; rfl)]
  · rw [List.length_set, hlength]
  · intro i
    have hindex : index < (args.rightpad (index + 1) .missing).length := by
      rw [hlength]
      exact Nat.lt_of_lt_of_le (Nat.lt_succ_self index) (Nat.le_max_right ..)
    rw [Argument.at?_set hindex, Argument.at?_rightpad]

/-! ## Section 2: Pieces as arguments -/

/-- The number of arguments that some placeholders reach. -/
def arity (ps : List Placeholder) : Nat := ps.foldr (fun p n => max (p.index + 1) n) 0

/-- The arguments hold the pieces of some placeholders as texts. -/
def Holds (args : List Argument) : List Placeholder → List Text → Prop :=
  List.Forall₂ fun p piece => Argument.at? args p.index = .text piece

theorem mapM_eq_ok_iff {α β ε : Type} {f : α → Except ε β} {xs : List α} {ys : List β} :
    xs.mapM f = .ok ys ↔ List.Forall₂ (fun x y => f x = .ok y) xs ys := by
  induction xs generalizing ys with
  | nil =>
    rw [List.mapM_nil, List.forall₂_nil_left_iff]
    exact ⟨fun h => (Except.ok.inj h).symm, fun h => h ▸ rfl⟩
  | cons x xs ih =>
    rw [List.mapM_cons, List.forall₂_cons_left_iff]
    constructor
    · intro h
      cases hx : f x with
      | error e => simp [hx, bind, Except.bind] at h
      | ok y =>
        cases hxs : xs.mapM f with
        | error e => simp [hx, hxs, bind, Except.bind] at h
        | ok rest =>
          have hys : y :: rest = ys := by simpa [hx, hxs, bind, Except.bind, pure, Except.pure] using h
          exact ⟨y, rest, rfl, ih.mp hxs, hys.symm⟩
    · rintro ⟨y, rest, hy, hrest, rfl⟩
      rw [hy, ih.mpr hrest]
      rfl

/-- **Arguments that hold some pieces are written as these pieces.** -/
theorem mapM_written_of_holds {tag : LocaleTag} {args : List Argument} {ps : List Placeholder}
    {pieces : List Text} (huntyped : ∀ p ∈ ps, p.format = none) (h : Holds args ps pieces) :
    ps.mapM (written tag args) = .ok pieces := by
  rw [mapM_eq_ok_iff]
  induction h with
  | nil => exact .nil
  | cons hpiece _ ih =>
    have hp := huntyped _ List.mem_cons_self
    exact .cons (written_of_untyped hp hpiece) (ih fun q hq => huntyped q (List.mem_cons_of_mem _ hq))

/-- Text arguments hold what is written for them. -/
theorem holds_of_mapM_written {tag : LocaleTag} {args : List Argument} {ps : List Placeholder}
    {pieces : List Text} (huntyped : ∀ p ∈ ps, p.format = none)
    (htexts : ∀ p ∈ ps, ∃ s, Argument.at? args p.index = .text s)
    (h : ps.mapM (written tag args) = .ok pieces) : Holds args ps pieces := by
  rw [mapM_eq_ok_iff] at h
  induction h with
  | nil => exact .nil
  | @cons p piece rest others hpiece _ ih =>
    obtain ⟨s, hs⟩ := htexts p List.mem_cons_self
    have hwritten : written tag args p = .ok s := written_of_untyped (huntyped p List.mem_cons_self) hs
    obtain rfl : s = piece := Except.ok.inj (hwritten.symm.trans hpiece)
    exact .cons hs (ih (fun q hq => huntyped q (List.mem_cons_of_mem _ hq))
      fun q hq => htexts q (List.mem_cons_of_mem _ hq))

/-- Arguments that hold the same pieces agree where these are mentioned. -/
theorem at?_eq_of_holds {args other : List Argument} {ps : List Placeholder} {pieces : List Text}
    (h : Holds args ps pieces) (h' : Holds other ps pieces) :
    ∀ p ∈ ps, Argument.at? args p.index = Argument.at? other p.index := by
  induction h with
  | nil => simp
  | cons hpiece _ ih =>
    obtain ⟨hpiece', hrest'⟩ := List.forall₂_cons.mp h'
    intro p hp
    rcases List.mem_cons.mp hp with rfl | hrest
    · exact hpiece.trans hpiece'.symm
    · exact ih hrest' p hrest

/-- **The pieces of untyped placeholders are all stored** when their indices are distinct and hold
nothing yet. -/
theorem exists_foldlM_readPiece (setting : Setting) (text : Text) {ps : List Placeholder}
    {pieces : List Text} {args : List Argument} (huntyped : ∀ p ∈ ps, p.format = none)
    (hdistinct : (ps.map Placeholder.index).Nodup) (hlength : pieces.length = ps.length)
    (hmissing : ∀ p ∈ ps, Argument.at? args p.index = .missing) :
    ∃ result, (ps.zip pieces).foldlM (readPiece setting text) args = .ok result ∧
      Holds result ps pieces ∧ result.length = max args.length (arity ps) ∧
      ∀ i, i ∉ ps.map Placeholder.index → Argument.at? result i = Argument.at? args i := by
  induction ps generalizing pieces args with
  | nil =>
    obtain rfl := List.eq_nil_of_length_eq_zero hlength
    exact ⟨args, rfl, .nil, (Nat.max_zero _).symm, fun _ _ => rfl⟩
  | cons p rest ih =>
    cases pieces with
    | nil => simp at hlength
    | cons piece others =>
      rw [List.map_cons, List.nodup_cons] at hdistinct
      obtain ⟨hfresh, hdistinct⟩ := hdistinct
      -- one step: the index of the first placeholder is fresh
      obtain ⟨next, hstore, hnext, hat⟩ :=
        store_of_missing text (.text piece) (hmissing p List.mem_cons_self)
      -- the indices that follow differ from this one, so they are still without a value
      have hstill : ∀ q ∈ rest, Argument.at? next q.index = .missing := by
        intro q hq
        have hne : q.index ≠ p.index := fun he => hfresh (he ▸ List.mem_map_of_mem hq)
        rw [hat, if_neg hne]
        exact hmissing q (List.mem_cons_of_mem _ hq)
      obtain ⟨result, hfold, hholds, hresult, hkeep⟩ :=
        ih (fun q hq => huntyped q (List.mem_cons_of_mem _ hq)) hdistinct (Nat.succ.inj hlength)
          hstill
      refine ⟨result, ?_, .cons ?_ hholds, ?_, ?_⟩
      · rw [List.zip_cons_cons, List.foldlM_cons,
          readPiece_of_untyped (huntyped p List.mem_cons_self), hstore]
        exact hfold
      · rw [hkeep _ hfresh, hat, if_pos rfl]
      · rw [hresult, hnext, Nat.max_assoc]
        rfl
      · intro i hi
        rw [List.map_cons, List.mem_cons, not_or] at hi
        rw [hkeep i hi.2, hat, if_neg hi.1]

/-- The arguments that some placeholders mention, by index, with missing values between them. -/
def mentioned (args : List Argument) (ps : List Placeholder) : List Argument :=
  (List.range (arity ps)).map fun i =>
    if i ∈ ps.map Placeholder.index then Argument.at? args i else .missing

/-- **Arguments are those mentioned** when they are as many and hold nothing else. -/
theorem eq_mentioned {args result : List Argument} {ps : List Placeholder}
    (hlength : result.length = arity ps)
    (hmentioned : ∀ p ∈ ps, Argument.at? result p.index = Argument.at? args p.index)
    (hother : ∀ i, i ∉ ps.map Placeholder.index → Argument.at? result i = .missing) :
    result = mentioned args ps := by
  have hmap : (mentioned args ps).length = arity ps := by
    rw [mentioned, List.length_map, List.length_range]
  apply List.ext_getElem (hlength.trans hmap.symm)
  intro i hi _
  have hat : Argument.at? result i = result[i] := List.getD_eq_getElem result .missing hi
  simp only [mentioned, List.getElem_map, List.getElem_range]
  rw [← hat]
  by_cases hmem : i ∈ ps.map Placeholder.index
  · obtain ⟨p, hp, rfl⟩ := List.mem_map.mp hmem
    rw [if_pos hmem]
    exact hmentioned p hp
  · rw [if_neg hmem]
    exact hother i hmem

end Message

end MessageCatalog
