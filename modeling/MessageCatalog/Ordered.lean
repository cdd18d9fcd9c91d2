/-!
# Ordered lists

Lists in strictly ascending order, in which no two elements compare equal, and the insertion of one
more element.

## Main statements

* `ascending_insert` : an insertion keeps the order
* `mem_insert_of_mem` : an insertion keeps the elements
-/

namespace MessageCatalog.Ordered

variable {α : Type} [Ord α]

/-- Put an element in its place; one that compares equal stays in its stead. -/
def insert (a : α) : List α → List α
  | [] => [a]
  | b :: rest =>
    match compare a b with
    | .lt => a :: b :: rest
    | .eq => b :: rest
    | .gt => b :: insert a rest

/-- Strictly ascending order. -/
def Ascending (l : List α) : Prop := l.Pairwise fun a b => compare a b = .lt

/-- The elements after an insertion are old ones or the new one. -/
theorem mem_insert {a b : α} {l : List α} (h : b ∈ insert a l) : b = a ∨ b ∈ l := by
  induction l with
  | nil => simpa [insert] using h
  | cons c rest ih =>
    unfold insert at h
    split at h
    · simpa using h
    · exact .inr h
    · rcases List.mem_cons.1 h with rfl | h
      · exact .inr List.mem_cons_self
      · rcases ih h with rfl | h
        · exact .inl rfl
        · exact .inr (List.mem_cons_of_mem _ h)

/-- An insertion keeps the elements. -/
theorem mem_insert_of_mem {a b : α} {l : List α} (h : b ∈ l) : b ∈ insert a l := by
  induction l with
  | nil => simp at h
  | cons c rest ih =>
    unfold insert
    split
    · exact List.mem_cons_of_mem _ h
    · exact h
    · rcases List.mem_cons.1 h with rfl | h
      · exact List.mem_cons_self
      · exact List.mem_cons_of_mem _ (ih h)

/-- An insertion keeps the order. -/
theorem ascending_insert [Std.TransOrd α] {a : α} {l : List α} (h : Ascending l) :
    Ascending (insert a l) := by
  induction l with
  | nil => simp [Ascending, insert]
  | cons b rest ih =>
    obtain ⟨hb, hrest⟩ := List.pairwise_cons.1 h
    unfold insert
    split
    · rename_i hlt
      refine List.pairwise_cons.2 ⟨fun c hc => ?_, h⟩
      rcases List.mem_cons.1 hc with rfl | hc
      · exact hlt
      · exact Std.TransCmp.lt_trans hlt (hb c hc)
    · exact h
    · rename_i hgt
      refine List.pairwise_cons.2 ⟨fun c hc => ?_, ih hrest⟩
      rcases mem_insert hc with rfl | hc
      · exact Std.OrientedCmp.lt_of_gt hgt
      · exact hb c hc

/-- Insert some elements in turn. -/
def insertAll (l as : List α) : List α := as.foldl (fun l a => insert a l) l

/-- Insertions keep the elements. -/
theorem mem_insertAll_of_mem {b : α} {l as : List α} (h : b ∈ l) : b ∈ insertAll l as := by
  induction as generalizing l with
  | nil => exact h
  | cons a as ih => exact ih (mem_insert_of_mem h)

/-- Insertions keep the order. -/
theorem ascending_insertAll [Std.TransOrd α] {l as : List α} (h : Ascending l) :
    Ascending (insertAll l as) := by
  induction as generalizing l with
  | nil => exact h
  | cons a as ih => exact ih (ascending_insert h)

end MessageCatalog.Ordered
