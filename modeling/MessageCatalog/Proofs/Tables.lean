import MessageCatalog.Ordered
import MessageCatalog.Table
import Mathlib.Data.List.Basic

/-!
# Looking up in tables

What a look-up finds, in terms of the entries of a table and of the entries it was made from.

## Main statements

* `get?_eq_some_iff` : a look-up finds the entry of its key
* `get?_ofList` : of the entries that a table is made from, the last one for a key counts
* `entries_ofList` : entries in ascending key order are the entries of their table
* `mem_ofList_iff` : entries with different keys are the entries of their table
* `Ascending.eq_of_mem_iff` : lists in ascending order are settled by their elements
* `mem_insertAll_iff` : insertions into an ordered list keep the elements and add the new ones
-/

namespace MessageCatalog

namespace Table

variable {κ ν : Type} [Ord κ]

/-! ## Section 1: Entries and look-ups -/

theorem ascending_keys (t : Table κ ν) : Ordered.Ascending t.keys :=
  List.pairwise_map.mpr t.ascending

theorem mem_of_get? [Std.LawfulEqOrd κ] {t : Table κ ν} {k : κ} {v : ν} (h : t.get? k = some v) :
    (k, v) ∈ t.entries := by
  obtain ⟨⟨k', v'⟩, hfind, rfl⟩ := Option.map_eq_some_iff.mp h
  have hk : compare k k' = .eq := by simpa using List.find?_some hfind
  obtain rfl : k = k' := Std.LawfulEqCmp.eq_of_compare hk
  exact List.mem_of_find?_eq_some hfind

variable [Std.TransOrd κ]

theorem get?_of_mem {t : Table κ ν} {k : κ} {v : ν} (h : (k, v) ∈ t.entries) :
    t.get? k = some v := by
  obtain ⟨entries, hasc⟩ := t
  simp only [get?] at h ⊢
  induction entries with
  | nil => simp at h
  | cons e rest ih =>
    obtain ⟨he, hrest⟩ := List.pairwise_cons.mp hasc
    rcases List.mem_cons.mp h with rfl | h
    · simp
    · -- the entries before it have smaller keys
      have hlt : compare e.1 k = .lt := he (k, v) h
      have hgt : compare k e.1 = .gt := Std.OrientedCmp.gt_of_lt hlt
      rw [List.find?_cons_of_neg (by simp [hgt])]
      exact ih hrest h

/-- The keys of a table are those with a value. -/
theorem isSome_get?_of_mem_keys {t : Table κ ν} {k : κ} (h : k ∈ t.keys) :
    ∃ v, (k, v) ∈ t.entries ∧ t.get? k = some v := by
  obtain ⟨⟨k', v⟩, hmem, rfl⟩ := List.mem_map.mp h
  exact ⟨v, hmem, get?_of_mem hmem⟩

/-- **A look-up finds the entry of its key** and nothing else. -/
theorem get?_eq_some_iff [Std.LawfulEqOrd κ] {t : Table κ ν} {k : κ} {v : ν} :
    t.get? k = some v ↔ (k, v) ∈ t.entries :=
  ⟨mem_of_get?, get?_of_mem⟩

/-- A key has a value when it is one of the keys. -/
theorem contains_iff_mem_keys [Std.LawfulEqOrd κ] {t : Table κ ν} {k : κ} :
    t.contains k = true ↔ k ∈ t.keys := by
  constructor
  · intro h
    obtain ⟨v, hv⟩ := Option.isSome_iff_exists.mp h
    exact List.mem_map.mpr ⟨(k, v), mem_of_get? hv, rfl⟩
  · intro h
    obtain ⟨v, _, hv⟩ := isSome_get?_of_mem_keys h
    simp [contains, hv]

/-- Keys that compare equal have the same value. -/
theorem get?_congr {k k' : κ} (h : compare k k' = .eq) (t : Table κ ν) : t.get? k = t.get? k' := by
  have hpred : (fun e : κ × ν => compare k e.1 == .eq) = fun e => compare k' e.1 == .eq := by
    funext e
    rw [Std.TransCmp.congr_left h]
  rw [get?, get?, hpred]

/-! ## Section 2: Tables made from entries -/

/-- After some insertions the last value for a key counts, and without one the old value. -/
theorem get?_insertAll (t : Table κ ν) (entries : List (κ × ν)) (k : κ) :
    (t.insertAll entries).get? k =
      ((entries.reverse.find? fun e => compare k e.1 == .eq).map Prod.snd).or (t.get? k) := by
  induction entries generalizing t with
  | nil => simp [insertAll]
  | cons e rest ih =>
    have hstep : (t.insertAll (e :: rest)).get? k = ((t.insert e.1 e.2).insertAll rest).get? k := rfl
    rw [hstep, ih, get?_insert, List.reverse_cons, List.find?_append]
    -- a later entry with the key wins over this one
    cases rest.reverse.find? fun e => compare k e.1 == .eq with
    | some found => simp
    | none => by_cases hk : compare k e.1 = .eq <;> simp [hk]

/-- **Of the entries that a table is made from, the last one for a key counts.** -/
theorem get?_ofList (entries : List (κ × ν)) (k : κ) :
    (ofList entries).get? k = (entries.reverse.find? fun e => compare k e.1 == .eq).map Prod.snd := by
  rw [ofList, get?_insertAll, get?_empty, Option.or_none]

/-- A table has a value for a key when all entries for that key agree on it. -/
theorem get?_ofList_eq_some {entries : List (κ × ν)} {k : κ} {v : ν}
    (hmem : ∃ e ∈ entries, compare k e.1 = .eq)
    (hvalue : ∀ e ∈ entries, compare k e.1 = .eq → e.2 = v) : (ofList entries).get? k = some v := by
  rw [get?_ofList]
  cases hfind : entries.reverse.find? fun e => compare k e.1 == .eq with
  | none =>
    obtain ⟨e, he, hk⟩ := hmem
    have hno := List.find?_eq_none.mp hfind e (List.mem_reverse.mpr he)
    exact absurd (beq_iff_eq.mpr hk) hno
  | some e =>
    have hk : compare k e.1 = .eq := by simpa using List.find?_some hfind
    have he : e ∈ entries := List.mem_reverse.mp (List.mem_of_find?_eq_some hfind)
    rw [Option.map_some, hvalue e he hk]

/-- A table has no value for a key that no entry has. -/
theorem get?_ofList_eq_none {entries : List (κ × ν)} {k : κ}
    (h : ∀ e ∈ entries, compare k e.1 ≠ .eq) : (ofList entries).get? k = none := by
  rw [get?_ofList, Option.map_eq_none_iff, List.find?_eq_none]
  intro e he hk
  exact h e (List.mem_reverse.mp he) (beq_iff_eq.mp hk)

private theorem insertEntry_of_greatest {k : κ} {v : ν} {entries : List (κ × ν)}
    (h : ∀ e ∈ entries, compare e.1 k = .lt) : insertEntry k v entries = entries ++ [(k, v)] := by
  induction entries with
  | nil => rfl
  | cons e rest ih =>
    have hgt : compare k e.1 = .gt := Std.OrientedCmp.gt_of_lt (h e List.mem_cons_self)
    simp only [insertEntry, hgt, List.cons_append]
    rw [ih fun e he => h e (List.mem_cons_of_mem _ he)]

private theorem entries_insertAll {t : Table κ ν} {entries : List (κ × ν)}
    (h : (t.entries ++ entries).Pairwise fun a b => compare a.1 b.1 = .lt) :
    (t.insertAll entries).entries = t.entries ++ entries := by
  -- each entry is greater than those in the table before it
  induction entries generalizing t with
  | nil => simp [insertAll]
  | cons e rest ih =>
    have hgreatest : ∀ e' ∈ t.entries, compare e'.1 e.1 = .lt := fun e' he' =>
      (List.pairwise_append.mp h).2.2 e' he' e List.mem_cons_self
    have hinsert : (t.insert e.1 e.2).entries = t.entries ++ [e] := insertEntry_of_greatest hgreatest
    have hrest : (t.insertAll (e :: rest)).entries = ((t.insert e.1 e.2).insertAll rest).entries := rfl
    rw [hrest, ih (by simpa [hinsert] using h), hinsert, List.append_assoc, List.singleton_append]

/-- **Entries in ascending key order are the entries of their table.** -/
theorem entries_ofList {entries : List (κ × ν)}
    (h : entries.Pairwise fun a b => compare a.1 b.1 = .lt) : (ofList entries).entries = entries :=
  entries_insertAll (t := empty) h

private theorem mem_insertAll {t : Table κ ν} {entries : List (κ × ν)} {e : κ × ν}
    (h : e ∈ (t.insertAll entries).entries) : e ∈ t.entries ∨ e ∈ entries := by
  induction entries generalizing t with
  | nil => exact .inl h
  | cons first rest ih =>
    have hstep : e ∈ ((t.insert first.1 first.2).insertAll rest).entries := h
    rcases ih hstep with hmem | hmem
    · rcases mem_insertEntry hmem with rfl | hmem
      · exact .inr List.mem_cons_self
      · exact .inl hmem
    · exact .inr (List.mem_cons_of_mem first hmem)

/-- **Entries no two of which have one key are the entries of their table**, in whatever order they
stand. -/
theorem mem_ofList_iff {entries : List (κ × ν)} {e : κ × ν}
    (h : ∀ e ∈ entries, ∀ e' ∈ entries, compare e.1 e'.1 = .eq → e = e') :
    e ∈ (ofList entries).entries ↔ e ∈ entries := by
  have hsound : ∀ e ∈ (ofList entries).entries, e ∈ entries := fun e he =>
    (mem_insertAll he).resolve_left (List.not_mem_nil)
  refine ⟨hsound e, fun he => ?_⟩
  have hget : (ofList entries).get? e.1 = some e.2 := by
    apply get?_ofList_eq_some ⟨e, he, Std.compare_self⟩
    intro e' he' hcompare
    rw [h e he e' he' hcompare]
  -- what is found is an entry with this key, so it is this one
  obtain ⟨found, hfind, _⟩ := Option.map_eq_some_iff.mp hget
  have hfound := List.mem_of_find?_eq_some hfind
  have hcompare : compare e.1 found.1 = .eq := by simpa using List.find?_some hfind
  rwa [h e he found (hsound found hfound) hcompare]

end Table

namespace Ordered

variable {α : Type} [Ord α]

/-- No element stands twice in a list in strictly ascending order. -/
theorem Ascending.nodup [Std.ReflOrd α] {l : List α} (h : Ascending l) : l.Nodup := by
  refine List.Pairwise.imp ?_ h
  rintro a b hab rfl
  simp at hab

/-- Elements of a list in strictly ascending order that compare equal are the same. -/
theorem Ascending.eq_of_compare [Std.OrientedOrd α] {l : List α} (h : Ascending l) {a b : α}
    (ha : a ∈ l) (hb : b ∈ l) (hab : compare a b = .eq) : a = b := by
  induction l with
  | nil => simp at ha
  | cons c rest ih =>
    obtain ⟨hc, hrest⟩ := List.pairwise_cons.mp h
    rcases List.mem_cons.mp ha with hac | har <;> rcases List.mem_cons.mp hb with hbc | hbr
    · rw [hac, hbc]
    · rw [hac, hc b hbr] at hab
      cases hab
    · rw [hbc, Std.OrientedCmp.gt_of_lt (hc a har)] at hab
      cases hab
    · exact ih hrest har hbr

/-- **Lists in strictly ascending order are settled by their elements.** -/
theorem Ascending.eq_of_mem_iff [Std.TransOrd α] {l l' : List α} (h : Ascending l)
    (h' : Ascending l') (hmem : ∀ a, a ∈ l ↔ a ∈ l') : l = l' := by
  have hperm : l.Perm l' := (List.perm_ext_iff_of_nodup h.nodup h'.nodup).mpr hmem
  have hantisymm : ∀ a b : α, compare a b = .lt → compare b a = .lt → a = b := fun _ _ hab hba =>
    absurd hba (Std.OrientedCmp.not_lt_of_lt hab)
  exact hperm.eq_of_pairwise (fun a b _ _ => hantisymm a b) h h'

/-- The elements after some insertions are old ones or new ones. -/
theorem mem_or_mem_of_mem_insertAll {a : α} {l as : List α} (h : a ∈ insertAll l as) :
    a ∈ l ∨ a ∈ as := by
  induction as generalizing l with
  | nil => exact .inl h
  | cons b as ih =>
    rcases ih h with hmem | hmem
    · rcases mem_insert hmem with rfl | hmem
      · exact .inr List.mem_cons_self
      · exact .inl hmem
    · exact .inr (List.mem_cons_of_mem b hmem)

variable [Std.LawfulEqOrd α]

theorem mem_insert_self (a : α) (l : List α) : a ∈ insert a l := by
  induction l with
  | nil => simp [insert]
  | cons b rest ih =>
    unfold insert
    split
    · exact List.mem_cons_self
    · rename_i heq
      rw [Std.LawfulEqCmp.eq_of_compare heq]
      exact List.mem_cons_self
    · exact List.mem_cons_of_mem _ ih

/-- Insertions keep the elements and add the new ones. -/
theorem mem_insertAll_iff {a : α} {l as : List α} : a ∈ insertAll l as ↔ a ∈ l ∨ a ∈ as := by
  refine ⟨mem_or_mem_of_mem_insertAll, ?_⟩
  rintro (h | h)
  · exact mem_insertAll_of_mem h
  · obtain ⟨before, after, rfl⟩ := List.append_of_mem h
    have hstep : insertAll l (before ++ a :: after) = insertAll (insert a (insertAll l before)) after := by
      rw [insertAll, List.foldl_append]
      rfl
    rw [hstep]
    exact mem_insertAll_of_mem (mem_insert_self a _)

end Ordered

end MessageCatalog
