import MessageCatalog.Text.Basic

/-!
# Tables

A table maps keys to values and holds its entries in strictly ascending key order, so that a walk
over it is a walk in that order. Two keys are the same when they compare equal.

## Main statements

* `get?_insert` : an insertion is seen at its own key and nowhere else
-/

namespace MessageCatalog

/-- Entries in strictly ascending key order. -/
structure Table (κ ν : Type) [Ord κ] where
  entries : List (κ × ν)
  ascending : entries.Pairwise fun a b => compare a.1 b.1 = .lt

namespace Table

variable {κ ν : Type} [Ord κ]

/-! ## Section 1: Ordered entry lists -/

/-- Put an entry in its place; an entry with the same key gives way. -/
def insertEntry (k : κ) (v : ν) : List (κ × ν) → List (κ × ν)
  | [] => [(k, v)]
  | e :: rest =>
    match compare k e.1 with
    | .lt => (k, v) :: e :: rest
    | .eq => (k, v) :: rest
    | .gt => e :: insertEntry k v rest

/-- The entries after an insertion are old ones or the new one. -/
theorem mem_insertEntry {k : κ} {v : ν} {entries : List (κ × ν)} {e : κ × ν}
    (h : e ∈ insertEntry k v entries) : e = (k, v) ∨ e ∈ entries := by
  induction entries with
  | nil => simpa [insertEntry] using h
  | cons e' rest ih =>
    unfold insertEntry at h
    split at h
    · simpa using h
    · rcases List.mem_cons.1 h with h | h
      · exact .inl h
      · exact .inr (List.mem_cons_of_mem _ h)
    · rcases List.mem_cons.1 h with h | h
      · exact .inr (h ▸ List.mem_cons_self)
      · rcases ih h with h | h
        · exact .inl h
        · exact .inr (List.mem_cons_of_mem _ h)

variable [Std.TransOrd κ]

/-- An insertion keeps the order of the keys. -/
theorem pairwise_insertEntry {k : κ} {v : ν} {entries : List (κ × ν)}
    (h : entries.Pairwise fun a b => compare a.1 b.1 = .lt) :
    (insertEntry k v entries).Pairwise fun a b => compare a.1 b.1 = .lt := by
  induction entries with
  | nil => simp [insertEntry]
  | cons e rest ih =>
    obtain ⟨he, hrest⟩ := List.pairwise_cons.1 h
    unfold insertEntry
    split
    · rename_i hlt
      refine List.pairwise_cons.2 ⟨fun x hx => ?_, h⟩
      rcases List.mem_cons.1 hx with rfl | hx
      · exact hlt
      · exact Std.TransCmp.lt_trans hlt (he x hx)
    · rename_i heq
      refine List.pairwise_cons.2 ⟨fun x hx => ?_, hrest⟩
      exact Std.TransCmp.lt_of_eq_of_lt heq (he x hx)
    · rename_i hgt
      refine List.pairwise_cons.2 ⟨fun x hx => ?_, ih hrest⟩
      rcases mem_insertEntry hx with rfl | hx
      · exact Std.OrientedCmp.lt_of_gt hgt
      · exact he x hx

/-! ## Section 2: Tables -/

/-- The table without entries. -/
def empty : Table κ ν := ⟨[], .nil⟩

instance : Inhabited (Table κ ν) := ⟨empty⟩

/-- Set the value of a key. -/
def insert (t : Table κ ν) (k : κ) (v : ν) : Table κ ν :=
  ⟨insertEntry k v t.entries, pairwise_insertEntry t.ascending⟩

/-- The value of a key. -/
def get? (t : Table κ ν) (k : κ) : Option ν :=
  (t.entries.find? fun e => compare k e.1 == .eq).map Prod.snd

/-- Whether a key has a value. -/
def contains (t : Table κ ν) (k : κ) : Bool := (t.get? k).isSome

/-- The keys in order. -/
def keys (t : Table κ ν) : List κ := t.entries.map Prod.fst

/-- The values in the order of their keys. -/
def values (t : Table κ ν) : List ν := t.entries.map Prod.snd

/-- The number of entries. -/
def size (t : Table κ ν) : Nat := t.entries.length

/-- Whether there is no entry. -/
def isEmpty (t : Table κ ν) : Bool := t.entries.isEmpty

/-- Set some values in turn; of two values for one key the later one stays. -/
def insertAll (t : Table κ ν) (entries : List (κ × ν)) : Table κ ν :=
  entries.foldl (fun t e => t.insert e.1 e.2) t

/-- The table of some entries; of two values for one key the later one stays. -/
def ofList (entries : List (κ × ν)) : Table κ ν := empty.insertAll entries

/-- Set the value of a key that has none yet. -/
def insertNew (t : Table κ ν) (k : κ) (v : ν) : Table κ ν :=
  if t.contains k then t else t.insert k v

/-- Look up after an insertion, on entry lists. -/
theorem find?_insertEntry {k k' : κ} {v : ν} {entries : List (κ × ν)}
    (h : entries.Pairwise fun a b => compare a.1 b.1 = .lt) :
    ((insertEntry k v entries).find? fun e => compare k' e.1 == .eq).map Prod.snd =
      if compare k' k = .eq then some v
      else (entries.find? fun e => compare k' e.1 == .eq).map Prod.snd := by
  induction entries with
  | nil => by_cases hk : compare k' k = .eq <;> simp [insertEntry, hk]
  | cons e rest ih =>
    obtain ⟨he, hrest⟩ := List.pairwise_cons.1 h
    unfold insertEntry
    split
    · by_cases hk : compare k' k = .eq <;> simp [hk]
    · rename_i heq
      by_cases hk : compare k' k = .eq
      · simp [hk]
      · have hk' : compare k' e.1 ≠ .eq := fun hc =>
          hk (Std.TransCmp.eq_trans hc (Std.OrientedCmp.eq_symm heq))
        simp [hk, hk']
    · rename_i hgt
      have hlt : compare e.1 k = .lt := Std.OrientedCmp.lt_of_gt hgt
      by_cases hk : compare k' k = .eq
      · have hk' : compare k' e.1 ≠ .eq := fun hc => by
          have h1 : compare e.1 k = .eq := Std.TransCmp.eq_trans (Std.OrientedCmp.eq_symm hc) hk
          simp [hlt] at h1
        have := ih hrest
        simp only [hk, if_true] at this
        simp [hk', hk, this]
      · by_cases hk' : compare k' e.1 = .eq
        · simp [hk', hk]
        · have := ih hrest
          simp only [hk, if_false] at this
          simp [hk', hk, this]

/-- An insertion is seen at its own key and nowhere else. -/
theorem get?_insert (t : Table κ ν) (k k' : κ) (v : ν) :
    (t.insert k v).get? k' = if compare k' k = .eq then some v else t.get? k' :=
  find?_insertEntry t.ascending

omit [Std.TransOrd κ] in
@[simp]
theorem get?_empty (k : κ) : (empty : Table κ ν).get? k = none := rfl

end Table

end MessageCatalog
