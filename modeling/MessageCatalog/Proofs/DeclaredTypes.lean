import MessageCatalog.Template.Signature
import Mathlib.Data.List.Basic

/-!
# Declared types

A placeholder declares a type for its index. While the placeholders of a template are placed one
after the other, an index that has a concrete type keeps it, and an index that is mentioned has a
slot. So the signature says of every placeholder either its own type, or that the placeholder left
the type open.

## Main statements

* `place_settles` : one placeholder settles its own index and leaves the concrete types alone
* `foldlM_place_settles` : what this comes to over all placeholders
* `signature_of_placeholder` : the signature has the type of every placeholder that declares one
-/

namespace MessageCatalog

namespace ArgType

theorem isConcrete_iff {type : ArgType} : type.isConcrete = true ↔ type ≠ .untyped := by
  simp [isConcrete]

end ArgType

namespace Template

/-! ## Section 1: One placeholder -/

/-- The type placed at an index, if the index is mentioned. -/
def placed? (slots : List (Option ArgType)) (index : Nat) : Option ArgType := slots[index]?.join

theorem placed?_rightpad (slots : List (Option ArgType)) (n index : Nat) :
    placed? (slots.rightpad n none) index = placed? slots index := by
  unfold placed? List.rightpad
  by_cases h : index < slots.length
  · rw [List.getElem?_append_left h]
  · -- the padding says no more than the end of the list
    have hle : slots.length ≤ index := Nat.le_of_not_lt h
    rw [List.getElem?_append_right hle, List.getElem?_eq_none hle, List.getElem?_replicate]
    split <;> rfl

theorem placed?_set {slots : List (Option ArgType)} {index : Nat} (h : index < slots.length)
    (type : ArgType) (i : Nat) :
    placed? (slots.set index (some type)) i = if i = index then some type else placed? slots i := by
  unfold placed?
  by_cases hi : i = index
  · subst hi
    rw [if_pos rfl, List.getElem?_set_self h]
    rfl
  · rw [if_neg hi, List.getElem?_set_ne (Ne.symm hi)]

/-- **One placeholder settles its own index.** The index has a slot afterwards, with the declared
type unless that is left open; a concrete type that was placed before stays. -/
theorem place_settles {slots slots' : List (Option ArgType)} {p : Placeholder}
    (h : place slots p = .ok slots') :
    (∃ type, placed? slots' p.index = some type ∧ (p.argType = .untyped ∨ type = p.argType)) ∧
      ∀ index type, placed? slots index = some type → type.isConcrete = true →
        placed? slots' index = some type := by
  unfold place at h
  simp only [] at h
  -- the padding gives the index a slot and places nothing
  have hroom : p.index < (slots.rightpad (p.index + 1) none).length := by
    simp [List.rightpad]
    omega
  have hpad : ∀ index, placed? (slots.rightpad (p.index + 1) none) index = placed? slots index :=
    placed?_rightpad slots (p.index + 1)
  generalize slots.rightpad (p.index + 1) none = padded at h hroom hpad
  -- placing the declared type is possible where no concrete type stands
  have placing (hopen : ∀ type, placed? padded p.index = some type → type.isConcrete = false) :
      (∃ type, placed? (padded.set p.index (some p.argType)) p.index = some type ∧
          (p.argType = .untyped ∨ type = p.argType)) ∧
        ∀ index type, placed? slots index = some type → type.isConcrete = true →
          placed? (padded.set p.index (some p.argType)) index = some type := by
    refine ⟨⟨p.argType, ?_, .inr rfl⟩, ?_⟩
    · rw [placed?_set hroom, if_pos rfl]
    · intro index type hplaced hconcrete
      rw [placed?_set hroom, hpad]
      split
      · rename_i hindex
        subst hindex
        have := hopen type (by rw [hpad, hplaced])
        simp [hconcrete] at this
      · exact hplaced
  split at h
  · rename_i hnone
    obtain rfl := Except.ok.inj h
    exact placing fun type htype => by simp [placed?, hnone] at htype
  · rename_i existing hexisting
    split at h
    · rename_i huntyped
      obtain rfl := Except.ok.inj h
      refine placing fun type htype => ?_
      obtain rfl : existing = type := by simpa [placed?, hexisting] using htype
      rw [huntyped]
      rfl
    · split at h
      · rename_i hagrees
        obtain rfl := Except.ok.inj h
        refine ⟨⟨existing, hexisting, hagrees.imp id Eq.symm⟩, ?_⟩
        intro index type hplaced _
        rw [hpad, hplaced]
      · simp at h

/-! ## Section 2: All placeholders -/

/-- **What the placeholders settle together**: every concrete type placed before stays, and every
index that a placeholder mentions has its declared type unless that is left open. -/
theorem foldlM_place_settles {ps : List Placeholder} {slots slots' : List (Option ArgType)}
    (h : ps.foldlM place slots = .ok slots') :
    (∀ index type, placed? slots index = some type → type.isConcrete = true →
        placed? slots' index = some type) ∧
      ∀ p ∈ ps, p.argType.isConcrete = true → placed? slots' p.index = some p.argType := by
  induction ps generalizing slots with
  | nil =>
    obtain rfl : slots = slots' := Except.ok.inj h
    exact ⟨fun _ _ hplaced _ => hplaced, by simp⟩
  | cons p ps ih =>
    rw [List.foldlM_cons] at h
    cases hplace : place slots p with
    | error e => simp [hplace, bind, Except.bind] at h
    | ok next =>
      obtain ⟨⟨type, htype, hsettled⟩, hkeep⟩ := place_settles hplace
      obtain ⟨hkeep', hrest⟩ := ih (by simpa [hplace, bind, Except.bind] using h)
      refine ⟨fun index t ht hc => hkeep' index t (hkeep index t ht hc) hc, ?_⟩
      intro q hq hconcrete
      rcases List.mem_cons.mp hq with rfl | hq
      · -- the type that this placeholder settles stays until the end
        have hne : q.argType ≠ .untyped := ArgType.isConcrete_iff.mp hconcrete
        obtain rfl : type = q.argType := hsettled.resolve_left hne
        exact hkeep' q.index _ htype hconcrete
      · exact hrest q hq hconcrete

/-- A text has a signature when it is a template whose placeholders agree. -/
theorem parseSignature_eq_ok_iff {source : Text} {s : Signature} :
    parseSignature source = .ok s ↔ ∃ t, parse source = .ok t ∧ t.signature = .ok s := by
  unfold parseSignature
  cases parse source with
  | error e => simp [bind, Except.bind]
  | ok t => simp [bind, Except.bind]

/-- **The signature has the type of every placeholder that declares one.** -/
theorem signature_of_placeholder {t : Template} {s : Signature} (h : t.signature = .ok s)
    {p : Placeholder} (hp : p ∈ t.placeholders) (hconcrete : p.argType.isConcrete = true) :
    s.get? p.index = some p.argType := by
  obtain ⟨slots, hslots, rfl⟩ := map_eq_ok_iff.mp h
  have hslot : slots[p.index]? = some (some p.argType) :=
    Option.join_eq_some_iff.mp ((foldlM_place_settles hslots).2 p hp hconcrete)
  simp [Signature.get?, hslot]

end Template

end MessageCatalog
