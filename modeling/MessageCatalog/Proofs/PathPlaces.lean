import MessageCatalog.FileTree
import Mathlib.Data.List.Infix

/-!
# Where paths lead

A path is followed name by name from the root or from the working directory, and every name on the
way must lead to a directory. So a path below another one leads on from where that one leads, and it
is all the same whether a file is named from the working directory or from the root.

## Main statements

* `Path.names_parents` : the directories that a path lies in have the first of its names
* `resolve_join` : a path below another one leads on from where that one leads
* `resolve_join_workingDirectory` : a relative path leads where it leads below the path of the
  working directory
-/

namespace MessageCatalog

open Text

/-! ## Section 1: Paths -/

namespace Path

theorem isAbsolute_append {part : Path} (h : part ≠ []) (tail : Text) :
    isAbsolute (part ++ tail) = isAbsolute part := by
  obtain ⟨c, cs, rfl⟩ := List.exists_cons_of_ne_nil h
  simp only [isAbsolute, startsWith, stripPrefix?, List.cons_append]
  split <;> rfl

/-- A relative path stands behind the one that it is below, with or without a slash between. -/
theorem exists_join_eq (base : Path) {part : Path} (hpart : isAbsolute part = false) :
    ∃ gap, '\x00' ∉ gap ∧ join base part = base ++ (gap ++ part) := by
  unfold join
  rw [if_neg (by simp [hpart])]
  split
  · exact ⟨[], by decide, rfl⟩
  · exact ⟨['/'], by decide, rfl⟩

/-- The steps of a path below another one are the steps of both. -/
theorem steps_join {base part : Path} (hbase : base ≠ []) (hpart : isAbsolute part = false) :
    steps (join base part) = steps base ++ steps part := by
  have hslash : ∀ front rest : Text, steps (front ++ '/' :: rest) = steps front ++ steps rest :=
    fun front rest => by rw [steps, List.splitOn_append_cons_self, List.filter_append, steps, steps]
  unfold join
  rw [if_neg (by simp [hpart])]
  split
  · rename_i hends
    -- the slash at the end of the upper path divides the steps
    obtain ⟨front, hfront⟩ := Option.isSome_iff_exists.mp (hends.resolve_left hbase)
    obtain rfl := stripSuffix?_eq_some_iff.mp hfront
    rw [List.append_assoc, List.singleton_append, hslash, hslash]
    simp [steps]
  · exact hslash base part

/-- There is no separator in a part between separators. -/
theorem not_mem_of_mem_splitOn {sep : Char} {p part : Text} (h : part ∈ p.splitOn sep) :
    sep ∉ part := by
  by_cases hsep : sep ∈ p
  · obtain ⟨before, rest, hp, hbefore⟩ := List.eq_append_cons_of_mem hsep
    rw [hp, List.splitOn_append_cons_self, List.splitOn_eq_singleton hbefore,
      List.singleton_append, List.mem_cons] at h
    rcases h with rfl | h
    · exact hbefore
    · exact not_mem_of_mem_splitOn h
  · rw [List.splitOn_eq_singleton hsep, List.mem_singleton] at h
    exact h ▸ hsep
termination_by p.length
decreasing_by
  rw [hp, List.length_append, List.length_cons]
  omega

/-- The names of some parts that are put together. -/
theorem names_join {parts : List Text} (hne : parts ≠ []) (h : ∀ part ∈ parts, '/' ∉ part) :
    names (Text.join ['/'] parts) = parts.filter isName := by
  rw [names, Text.join, List.splitOn_intercalate '/' h hne]

/-- The longest of the beginnings of a list is the list itself. -/
theorem reverse_tail_inits_concat {α : Type} (l : List α) (a : α) :
    (l ++ [a]).inits.tail.reverse = (l ++ [a]) :: l.inits.tail.reverse := by
  have hne : l.inits ≠ [] := List.ne_nil_of_mem ((List.mem_inits [] l).mpr List.nil_prefix)
  rw [List.inits_append, List.tail_append_of_ne_nil hne]
  simp

theorem map_names_upward {parts : List Text} (h : ∀ part ∈ parts, '/' ∉ part) :
    (upward parts).map names = (parts.filter isName).reverse.inits.tail.reverse := by
  induction parts with
  | nil => rfl
  | cons part before ih =>
    have hbefore := ih fun part hpart => h part (List.mem_cons_of_mem _ hpart)
    unfold upward
    split
    · rename_i hname
      have hparts : ∀ p ∈ before.reverse ++ [part], '/' ∉ p := by simpa [or_comm] using h
      rw [List.map_cons, names_join (by simp) hparts, hbefore, List.filter_cons_of_pos hname,
        List.reverse_cons, reverse_tail_inits_concat]
      simp [hname]
    · rename_i hname
      rw [List.filter_cons_of_neg hname, hbefore]

/-- **The directories that a path lies in have the first of its names**: all but the last one, all
but the last two, and so on. -/
theorem names_parents (p : Path) :
    (parents p).map names = (names p).dropLast.inits.tail.reverse := by
  have hparts : ∀ part ∈ (p.splitOn '/').reverse, '/' ∉ part := fun part hpart =>
    not_mem_of_mem_splitOn (List.mem_reverse.mp hpart)
  rw [parents, ancestors, List.map_tail, map_names_upward hparts, List.filter_reverse,
    List.reverse_reverse, ← names]
  -- the longest beginning is the path itself, and is no directory that it lies in
  obtain hnil | ⟨front, last, hnames⟩ := List.eq_nil_or_concat' (names p)
  · rw [hnil]
    rfl
  · rw [hnames, reverse_tail_inits_concat, List.dropLast_concat, List.tail_cons]

example : parents "/srv/./out//a.rs".toList = ["/srv/./out".toList, "/srv".toList] := by decide

end Path

namespace FileTree

variable {tree : FileTree} {place : Place}

/-! ## Section 2: Following a path -/

/-- A path of two parts leads on from where its first part leads. -/
theorem locate_append (tree : FileTree) (place : Place) (first second : List Text) :
    tree.locate place (first ++ second) =
      tree.locate place first >>= fun place => tree.locate place second := by
  induction first generalizing place with
  | nil => rfl
  | cons name rest ih =>
    simp only [List.cons_append, locate]
    split
    · rfl
    · rfl
    · exact ih _

theorem resolve_eq_ok_iff {path : Path} :
    tree.resolve path = .ok place ↔
      '\x00' ∉ path ∧ path ≠ [] ∧ fits pathLimit path = true ∧
        tree.locate (tree.start path) (Path.steps path) = .ok place := by
  unfold resolve
  split_ifs with hnul hempty hfits <;> simp_all

theorem fits_of_append {limit : Nat} {a b : Text} (h : fits limit (a ++ b) = true) :
    fits limit b = true := by
  unfold fits Utf8.encode at h ⊢
  simp only [List.flatMap_append, List.length_append, decide_eq_true_eq] at h ⊢
  omega

/-- **A path below another one leads on from where that one leads.** -/
theorem resolve_join {base part : Path} (hbase : tree.resolve base = .ok place)
    (hpart : Path.isAbsolute part = false) (hnul : '\x00' ∉ part)
    (hfits : fits pathLimit (Path.join base part) = true) :
    tree.resolve (Path.join base part) = tree.locate place (Path.steps part) := by
  obtain ⟨hnul', hne, -, hlocate⟩ := resolve_eq_ok_iff.mp hbase
  have hsteps := Path.steps_join hne hpart
  obtain ⟨gap, hgap, hjoin⟩ := Path.exists_join_eq base hpart
  -- the joined path begins where the upper one begins, at the root or in the working directory
  have hstart : tree.start (Path.join base part) = tree.start base := by
    rw [start, start, hjoin, Path.isAbsolute_append hne]
  have hjoined : '\x00' ∉ Path.join base part ∧ Path.join base part ≠ [] := by
    rw [hjoin]
    simp [hnul, hnul', hne, hgap]
  rw [resolve, if_neg hjoined.1, if_neg hjoined.2, if_pos hfits, hsteps, hstart, locate_append,
    hlocate]
  rfl

/-- **A relative path leads where it leads below the path of the working directory.** -/
theorem resolve_join_workingDirectory {base part : Path}
    (hbase : tree.resolve base = .ok tree.workingDirectory)
    (hpart : Path.isAbsolute part = false) (hne : part ≠ [])
    (hfits : fits pathLimit (Path.join base part) = true) :
    tree.resolve (Path.join base part) = tree.resolve part := by
  obtain ⟨gap, -, hjoin⟩ := Path.exists_join_eq base hpart
  by_cases hnul : '\x00' ∈ part
  · -- both paths are refused for the same character
    have hjoined : '\x00' ∈ Path.join base part := by
      rw [hjoin]
      simp [hnul]
    rw [resolve, resolve, if_pos hnul, if_pos hjoined]
  · rw [resolve_join hbase hpart hnul hfits]
    have hfits' : fits pathLimit part = true := by
      rw [hjoin, ← List.append_assoc] at hfits
      exact fits_of_append hfits
    rw [resolve, if_neg hnul, if_neg hne, if_pos hfits', start, if_neg (by simp [hpart])]

end FileTree

end MessageCatalog
