import Mathlib.Data.List.Basic

/-!
# Stable sorting

A merge sort keeps the elements of each class of the order in their places relative to each other.
That settles its result: a list in ascending order with the same elements in every class, in the
same order, is the sorted list.

## Main statements

* `filter_mergeSort` : sorting keeps every class as it stands
* `mergeSort_eq_of_filter` : an ascending list with the same classes is the sorted list
* `filter_flatMap_of_unique` : one piece of a concatenation is singled out by its label
-/

namespace MessageCatalog.Ordered

variable {α : Type} (order : α → α → Ordering)

/-- `b` is in the class of `a`. -/
def inClass (a b : α) : Bool := order a b == .eq

/-- Lists in ascending order, in which elements of one class may stand side by side. -/
def Sorted (l : List α) : Prop := l.Pairwise fun a b => (order a b).isLE = true

variable {order} [Std.TransCmp order]

/-! ## Section 1: Classes after sorting -/

private theorem isLE_total (a b : α) : ((order a b).isLE || (order b a).isLE) = true := by
  rw [@Std.OrientedCmp.eq_swap _ order _ b a]
  cases order a b <;> rfl

/-- Merge sort gives a list in ascending order. -/
theorem sorted_mergeSort (l : List α) : Sorted order (l.mergeSort fun a b => (order a b).isLE) :=
  List.pairwise_mergeSort (fun _ _ _ => Std.TransCmp.isLE_trans) isLE_total l

private theorem sorted_filter_inClass (a : α) (l : List α) :
    Sorted order (l.filter (inClass order a)) := by
  refine List.Pairwise.imp_of_mem ?_ (List.pairwise_of_forall (R := fun _ _ => True) (by simp))
  intro b c hb hc _
  have hab : order a b = .eq := by simpa [inClass] using (List.mem_filter.mp hb).2
  have hac : order a c = .eq := by simpa [inClass] using (List.mem_filter.mp hc).2
  rw [Std.TransCmp.eq_trans (Std.OrientedCmp.eq_symm hab) hac]
  rfl

/-- **Stability**: sorting keeps every class as it stands. -/
theorem filter_mergeSort (a : α) (l : List α) :
    (l.mergeSort fun a b => (order a b).isLE).filter (inClass order a) =
      l.filter (inClass order a) := by
  -- the class is an ascending sublist, so it survives the sort; it cannot have grown
  have hsub : (l.filter (inClass order a)).Sublist (l.mergeSort fun a b => (order a b).isLE) :=
    List.sublist_mergeSort (fun _ _ _ => Std.TransCmp.isLE_trans) isLE_total
      (sorted_filter_inClass a l) List.filter_sublist
  have hsub' := hsub.filter (inClass order a)
  rw [List.filter_filter, List.filter_congr fun _ _ => Bool.and_self _] at hsub'
  have hlen := ((List.mergeSort_perm l fun a b => (order a b).isLE).filter (inClass order a)).length_eq
  exact (hsub'.eq_of_length hlen.symm).symm

/-! ## Section 2: Ascending lists by their classes -/

private theorem inClass_self (a : α) : inClass order a a = true := by
  simp [inClass, Std.ReflCmp.compare_self]

private theorem isLE_head {a b : α} {l : List α} (h : Sorted order (a :: l)) (hb : b ∈ a :: l) :
    (order a b).isLE = true := by
  rcases List.mem_cons.mp hb with rfl | hb
  · exact Std.ReflCmp.isLE_rfl
  · exact (List.pairwise_cons.mp h).1 b hb

/-- **Ascending lists are settled by their classes.** -/
theorem eq_of_filter_inClass {l m : List α} (hl : Sorted order l) (hm : Sorted order m)
    (h : ∀ a ∈ l ++ m, l.filter (inClass order a) = m.filter (inClass order a)) : l = m := by
  induction l generalizing m with
  | nil =>
    cases m with
    | nil => rfl
    | cons b m =>
      have := h b (by simp)
      simp [inClass_self] at this
  | cons a l ih =>
    cases m with
    | nil =>
      have := h a (by simp)
      simp [inClass_self] at this
    | cons b m =>
      have mem_of_filter : ∀ c ∈ (a :: l) ++ (b :: m), c ∈ a :: l ↔ c ∈ b :: m := by
        intro c hc
        have hiff : c ∈ (a :: l).filter (inClass order c) ↔ c ∈ (b :: m).filter (inClass order c) := by
          rw [h c hc]
        simpa only [List.mem_filter, inClass_self, and_true] using hiff
      -- the two heads are below each other, hence in one class, of which each is the first
      have hab : (order a b).isLE = true :=
        isLE_head hl ((mem_of_filter b (by simp)).mpr List.mem_cons_self)
      have hba : (order b a).isLE = true :=
        isLE_head hm ((mem_of_filter a (by simp)).mp List.mem_cons_self)
      have hclass : inClass order a b = true := by
        simpa [inClass] using Std.OrientedCmp.isLE_antisymm hab hba
      have hheads := h a (by simp)
      rw [List.filter_cons_of_pos (inClass_self a), List.filter_cons_of_pos hclass] at hheads
      obtain rfl : a = b := (List.cons.inj hheads).1
      rw [ih (List.pairwise_cons.mp hl).2 (List.pairwise_cons.mp hm).2]
      intro c hc
      have hc' : c ∈ (a :: l) ++ (a :: m) := by
        rcases List.mem_append.mp hc with hc | hc <;> simp [hc]
      have := h c hc'
      by_cases hca : inClass order c a = true
      · rw [List.filter_cons_of_pos hca, List.filter_cons_of_pos hca] at this
        exact (List.cons.inj this).2
      · rwa [List.filter_cons_of_neg hca, List.filter_cons_of_neg hca] at this

/-- **The sorted list**: an ascending list with the same classes is what sorting gives. -/
theorem mergeSort_eq_of_filter {l m : List α} (hm : Sorted order m)
    (h : ∀ a ∈ l ++ m, l.filter (inClass order a) = m.filter (inClass order a)) :
    (l.mergeSort fun a b => (order a b).isLE) = m := by
  refine eq_of_filter_inClass (sorted_mergeSort l) hm ?_
  intro a ha
  rw [filter_mergeSort]
  refine h a ?_
  rcases List.mem_append.mp ha with ha | ha
  · exact List.mem_append_left _ ((List.mergeSort_perm l _).mem_iff.mp ha)
  · exact List.mem_append_right _ ha

/-! ## Section 3: Labelled concatenations -/

/-- One piece of a concatenation is singled out by its label. -/
theorem filter_flatMap_of_unique {ι β : Type} [DecidableEq ι] {l : List ι} (f : ι → List β)
    (p : β → Bool) (i : ι) (hnodup : l.Nodup) (hp : ∀ j ∈ l, ∀ b ∈ f j, p b = decide (j = i)) :
    (l.flatMap f).filter p = if i ∈ l then f i else [] := by
  induction l with
  | nil => simp
  | cons j l ih =>
    obtain ⟨hj, hnodup⟩ := List.nodup_cons.mp hnodup
    have ih := ih hnodup fun k hk => hp k (List.mem_cons_of_mem _ hk)
    have hpiece := hp j List.mem_cons_self
    rw [List.flatMap_cons, List.filter_append, ih]
    by_cases hji : j = i
    · subst hji
      have : (f j).filter p = f j := List.filter_eq_self.mpr fun b hb => by simp [hpiece b hb]
      simp [this, hj]
    · have : (f j).filter p = [] := List.filter_eq_nil_iff.mpr fun b hb => by simp [hpiece b hb, hji]
      simp [this, Ne.symm hji]

end MessageCatalog.Ordered
