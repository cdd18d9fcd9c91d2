import MessageCatalog.Proofs.LoadingOutcome

/-!
# Which definition of a key counts

A key may be defined several times, in one file and in the files of several roots. Within a file the
last definition counts. Between files it is the override policy that decides: it settles in which
order the roots are searched, and the first root with a definition gives it.

## Main statements

* `Table.eq_of_get?_eq` : a table is settled by what is found in it
* `get?_fileMessages` : of the entries for a key in one file, the last one counts
* `get?_gatheredMessages` : the first definition in search order counts
* `loadLocale_exact` : the messages and the sources of a locale
* `loadLocale_blocked_root` : a root that is no directory makes a locale fail
-/

namespace MessageCatalog

/-! ## Section 1: Tables put together -/

namespace Table

variable {κ ν : Type} [Ord κ] [Std.TransOrd κ]

/-- **A table is settled by what is found in it.** -/
theorem eq_of_get?_eq [Std.LawfulEqOrd κ] {t t' : Table κ ν} (h : ∀ k, t.get? k = t'.get? k) :
    t = t' := by
  have hmem : ∀ e, e ∈ t.entries ↔ e ∈ t'.entries := by
    rintro ⟨k, v⟩
    rw [← get?_eq_some_iff, ← get?_eq_some_iff, h k]
  have hnodup : ∀ t : Table κ ν, t.entries.Nodup := by
    intro t
    refine t.ascending.imp ?_
    rintro a b hab rfl
    simp at hab
  have hperm : t.entries.Perm t'.entries :=
    (List.perm_ext_iff_of_nodup (hnodup t) (hnodup t')).mpr hmem
  have hantisymm : ∀ a b : κ × ν, compare a.1 b.1 = .lt → compare b.1 a.1 = .lt → a = b :=
    fun _ _ hab hba => absurd hba (Std.OrientedCmp.not_lt_of_lt hab)
  have hentries : t.entries = t'.entries :=
    hperm.eq_of_pairwise (fun a b _ _ => hantisymm a b) t.ascending t'.ascending
  cases t
  cases t'
  congr

/-- A table made from the entries of a table is that table. -/
theorem ofList_entries (t : Table κ ν) : ofList t.entries = t := by
  obtain ⟨entries, hasc⟩ := t
  have hentries : (ofList entries).entries = entries := entries_ofList hasc
  cases h : ofList entries
  simp_all

/-- When the entries of a table are put over another one, its values count first. -/
theorem get?_insertAll_entries (t upper : Table κ ν) (k : κ) :
    (t.insertAll upper.entries).get? k = (upper.get? k).or (t.get? k) := by
  rw [get?_insertAll, ← get?_ofList, ofList_entries]

theorem get?_insertNew (t : Table κ ν) (k k' : κ) (v : ν) :
    (t.insertNew k v).get? k' = (t.get? k').or (if compare k' k = .eq then some v else none) := by
  unfold insertNew contains
  by_cases hk : compare k' k = .eq
  · have hsame := get?_congr hk t
    cases hget : t.get? k with
    | none => simp [get?_insert, hk, hsame, hget]
    | some old => simp [hk, hsame, hget]
  · rw [if_neg hk, Option.or_none]
    split
    · rfl
    · rw [get?_insert, if_neg hk]

/-- When entries are put under those of a table, its values count first, and of the others the
first one for a key. -/
theorem get?_foldl_insertNew (t : Table κ ν) (entries : List (κ × ν)) (k : κ) :
    (entries.foldl (fun t e => t.insertNew e.1 e.2) t).get? k =
      (t.get? k).or ((entries.find? fun e => compare k e.1 == .eq).map Prod.snd) := by
  induction entries generalizing t with
  | nil => simp
  | cons e rest ih =>
    rw [List.foldl_cons, ih, get?_insertNew, Option.or_assoc]
    by_cases hk : compare k e.1 = .eq <;> simp [hk]

end Table

/-! ## Section 2: One file -/

namespace Properties

/-- A value is that of the last entry for a key. -/
def LastFor (entries : List (Text × Text)) (key value : Text) : Prop :=
  ∃ earlier later, entries = earlier ++ (key, value) :: later ∧ ∀ e ∈ later, e.1 ≠ key

theorem lastFor_iff {entries : List (Text × Text)} {key value : Text} :
    LastFor entries key value ↔
      (entries.reverse.find? fun e => e.1 == key).map Prod.snd = some value := by
  rw [Option.map_eq_some_iff]
  simp only [List.find?_eq_some_iff_append]
  constructor
  · rintro ⟨earlier, later, rfl, hlater⟩
    refine ⟨(key, value), ⟨by simp, later.reverse, earlier.reverse, by simp, ?_⟩, rfl⟩
    intro e he
    simpa using hlater e (List.mem_reverse.mp he)
  · rintro ⟨⟨_, _⟩, ⟨hkey, later, earlier, hentries, hlater⟩, rfl⟩
    obtain rfl := beq_iff_eq.mp hkey
    refine ⟨earlier.reverse, later.reverse, ?_, ?_⟩
    · rw [← List.reverse_reverse entries, hentries]
      simp
    · intro e he
      simpa using hlater e (List.mem_reverse.mp he)

/-- There is a last entry for a key when there is any. -/
theorem exists_lastFor_iff {entries : List (Text × Text)} {key : Text} :
    (∃ value, LastFor entries key value) ↔ ∃ value, (key, value) ∈ entries := by
  simp only [lastFor_iff, ← Option.isSome_iff_exists, Option.isSome_map, List.find?_isSome,
    List.mem_reverse]
  constructor
  · rintro ⟨⟨_, value⟩, hmem, hkey⟩
    obtain rfl := beq_iff_eq.mp hkey
    exact ⟨value, hmem⟩
  · rintro ⟨value, hmem⟩
    exact ⟨(key, value), hmem, beq_self_eq_true key⟩

end Properties

namespace Bundle

variable {b : Bundle} {files : FileTree} {tag : LocaleTag} {key value : Text}

theorem stripKey?_eq_some_iff {written : Text} :
    b.stripKey? written = some key ↔ key ≠ [] ∧ written = b.keyPrefix ++ key := by
  rw [stripKey?, Option.filter_eq_some_iff, Text.stripPrefix?_eq_some_iff]
  simp [and_comm]

/-- **Of the entries for a key in one file, the last one counts.** -/
theorem get?_fileMessages {content : Text} :
    (b.fileMessages content).get? key = some value ↔
      key ≠ [] ∧ Properties.LastFor (Properties.parse content) (b.keyPrefix ++ key) value := by
  have hscope : b.fileMessages content =
      Table.ofList ((Properties.parse content).filterMap fun e =>
        (b.stripKey? e.1).map (·, e.2)) := by
    rw [fileMessages, entriesInScope, List.map_filterMap]
    congr
    funext e
    simp [Function.comp_def]
  -- the entries that count for the key are those with the prefix before it
  have hcounts : ∀ e : Text × Text,
      ((b.stripKey? e.1).map (·, e.2)).any (fun e => compare key e.1 == .eq) =
        (decide (key ≠ []) && e.1 == b.keyPrefix ++ key) := by
    intro e
    rw [Bool.eq_iff_iff, Option.any_eq_true]
    simp only [Option.map_eq_some_iff, stripKey?_eq_some_iff, beq_iff_eq, Bool.and_eq_true,
      decide_eq_true_eq]
    constructor
    · rintro ⟨_, ⟨written, hwritten, rfl⟩, hcompare⟩
      obtain rfl : key = written := Std.LawfulEqCmp.eq_of_compare hcompare
      exact hwritten
    · intro hwritten
      exact ⟨(key, e.2), ⟨key, hwritten, rfl⟩, Std.compare_self⟩
  rw [hscope, Table.get?_ofList, ← List.filterMap_reverse, List.find?_filterMap,
    funext hcounts, Properties.lastFor_iff]
  by_cases hkey : key = []
  · have hnone : (Properties.parse content).reverse.find? (fun _ => false) = none :=
      List.find?_eq_none.mpr (by simp)
    simp [hkey, hnone]
  · simp only [hkey, ne_eq, not_false_eq_true, decide_true, Bool.true_and, true_and]
    cases hfind : (Properties.parse content).reverse.find? fun e => e.1 == b.keyPrefix ++ key with
    | none => simp
    | some e =>
      have hwritten : e.1 = b.keyPrefix ++ key := by simpa using List.find?_some hfind
      have hstrip : b.stripKey? e.1 = some key := stripKey?_eq_some_iff.mpr ⟨hkey, hwritten⟩
      simp [hstrip]

/-! ## Section 3: The files of all roots -/

/-- The roots in the order in which they are searched for a definition. -/
def searchOrder (b : Bundle) : List Path :=
  match b.overridePolicy with
  | .lastRootWins => b.roots.reverse
  | .firstRootWins => b.roots

/-- The value of a key in the file under a root. -/
def definition? (b : Bundle) (files : FileTree) (tag : LocaleTag) (key : Text) (root : Path) :
    Option Text :=
  (b.document? files tag root).bind fun content => (b.fileMessages content).get? key

theorem get?_mergeMessages (policy : OverridePolicy) (gathered file : Table Text Text) (key : Text) :
    (mergeMessages policy gathered file).get? key =
      match policy with
      | .lastRootWins => (file.get? key).or (gathered.get? key)
      | .firstRootWins => (gathered.get? key).or (file.get? key) := by
  cases policy with
  | lastRootWins => exact gathered.get?_insertAll_entries file key
  | firstRootWins => exact gathered.get?_foldl_insertNew file.entries key

theorem get?_takeFile (gathered : LocaleMessages) (root : Path) :
    (b.takeFile files tag gathered root).messages.get? key =
      match b.overridePolicy with
      | .lastRootWins => (b.definition? files tag key root).or (gathered.messages.get? key)
      | .firstRootWins => (gathered.messages.get? key).or (b.definition? files tag key root) := by
  unfold takeFile definition?
  cases b.document? files tag root with
  | none => cases b.overridePolicy <;> simp [takeDocument]
  | some content => exact get?_mergeMessages b.overridePolicy gathered.messages _ key

/-- **The first definition in search order counts.** -/
theorem get?_gatheredMessages :
    (b.gatheredMessages files tag).messages.get? key =
      b.searchOrder.findSome? (b.definition? files tag key) := by
  -- what was gathered before counts last for the one policy, and first for the other
  have hrun : ∀ (roots : List Path) (gathered : LocaleMessages),
      (roots.foldl (b.takeFile files tag) gathered).messages.get? key =
        match b.overridePolicy with
        | .lastRootWins =>
          (roots.reverse.findSome? (b.definition? files tag key)).or (gathered.messages.get? key)
        | .firstRootWins =>
          (gathered.messages.get? key).or (roots.findSome? (b.definition? files tag key)) := by
    intro roots
    induction roots with
    | nil => intro gathered; cases b.overridePolicy <;> simp
    | cons root roots ih =>
      intro gathered
      rw [List.foldl_cons, ih, get?_takeFile]
      cases b.overridePolicy with
      | lastRootWins => simp [List.findSome?_append, Option.or_assoc]
      | firstRootWins => cases h : b.definition? files tag key root <;> simp [h]
  have hall := hrun b.roots (LocaleMessages.empty tag)
  unfold searchOrder
  rw [gatheredMessages, hall]
  cases b.overridePolicy <;> simp [LocaleMessages.empty]

/-- **The policies are each other's reverse**: with the first root winning, the roots give the same
messages as with the last one winning in reversed order. -/
theorem messages_reversed (b : Bundle) (files : FileTree) (tag : LocaleTag) :
    (gatheredMessages { b with overridePolicy := .firstRootWins } files tag).messages =
      (gatheredMessages { b with overridePolicy := .lastRootWins, roots := b.roots.reverse }
        files tag).messages := by
  apply Table.eq_of_get?_eq
  intro key
  rw [get?_gatheredMessages, get?_gatheredMessages]
  simp only [searchOrder, List.reverse_reverse]
  rfl

/-- The sources of a locale are its documents, in root order. -/
theorem sources_gatheredMessages :
    (b.gatheredMessages files tag).sources =
      (b.roots.filter fun root => (b.document? files tag root).isSome).map
        (b.resourcePath · tag) := by
  have hrun : ∀ (roots : List Path) (gathered : LocaleMessages),
      (roots.foldl (b.takeFile files tag) gathered).sources =
        gathered.sources ++ (roots.filter fun root => (b.document? files tag root).isSome).map
          (b.resourcePath · tag) := by
    intro roots
    induction roots with
    | nil => simp
    | cons root roots ih =>
      intro gathered
      rw [List.foldl_cons, ih, takeFile]
      cases h : b.document? files tag root <;> simp [takeDocument, h]
  exact hrun b.roots _

/-! ## Section 4: The root that settles a key -/

/-- The file of a locale under a root has an entry for a key, with the prefix before it. -/
def Mentions (b : Bundle) (files : FileTree) (tag : LocaleTag) (key : Text) (root : Path) : Prop :=
  ∃ content, files.readText (b.resourcePath root tag) = .ok content ∧
    ∃ value, (b.keyPrefix ++ key, value) ∈ Properties.parse content

/-- The last entry for a key in the file under a root has some value. -/
def Gives (b : Bundle) (files : FileTree) (tag : LocaleTag) (key : Text) (root : Path)
    (value : Text) : Prop :=
  ∃ content, files.readText (b.resourcePath root tag) = .ok content ∧
    Properties.LastFor (Properties.parse content) (b.keyPrefix ++ key) value

/-- **A value is that of the root that settles a key**: the last one, or the first one, of the roots
whose files have an entry for it. -/
def Settles (b : Bundle) (files : FileTree) (tag : LocaleTag) (key value : Text) : Prop :=
  ∃ earlier root later, b.roots = earlier ++ root :: later ∧ b.Gives files tag key root value ∧
    match b.overridePolicy with
    | .lastRootWins => ∀ other ∈ later, ¬ b.Mentions files tag key other
    | .firstRootWins => ∀ other ∈ earlier, ¬ b.Mentions files tag key other

theorem definition?_eq_some_iff {root : Path} :
    b.definition? files tag key root = some value ↔
      key ≠ [] ∧ b.Gives files tag key root value := by
  unfold definition? document? Gives
  rw [Option.bind_eq_some_iff]
  simp only [get?_fileMessages]
  cases files.readText (b.resourcePath root tag) <;> simp [Except.toOption]

theorem definition?_eq_none_iff {root : Path} (hkey : key ≠ []) :
    b.definition? files tag key root = none ↔ ¬ b.Mentions files tag key root := by
  rw [Option.eq_none_iff_forall_ne_some, Mentions]
  simp only [ne_eq, definition?_eq_some_iff, hkey, not_false_eq_true, true_and,
    ← Properties.exists_lastFor_iff, Gives]
  push Not
  exact ⟨fun h content hread value => h value content hread,
    fun h value content hread => h content hread value⟩

theorem mem_searchOrder_iff {root : Path} : root ∈ b.searchOrder ↔ root ∈ b.roots := by
  unfold searchOrder
  cases b.overridePolicy <;> simp

/-- The first definition in search order is that of the root that settles the key. -/
theorem findSome?_definition?_iff :
    b.searchOrder.findSome? (b.definition? files tag key) = some value ↔
      key ≠ [] ∧ b.Settles files tag key value := by
  rw [List.findSome?_eq_some_iff]
  by_cases hkey : key = []
  · simp [definition?_eq_some_iff, hkey]
  · simp only [definition?_eq_some_iff, definition?_eq_none_iff hkey, Settles, searchOrder]
    cases b.overridePolicy with
    | firstRootWins => simp [hkey]
    | lastRootWins =>
      simp only [hkey, ne_eq, not_false_eq_true, true_and]
      constructor
      · rintro ⟨later, root, earlier, hroots, hgives, hlater⟩
        refine ⟨earlier.reverse, root, later.reverse, ?_, hgives, by simpa using hlater⟩
        rw [← List.reverse_reverse b.roots, hroots]
        simp
      · rintro ⟨earlier, root, later, hroots, hgives, hlater⟩
        exact ⟨later.reverse, root, earlier.reverse, by simp [hroots], hgives,
          by simpa using hlater⟩

/-- A definition is found when a root has an entry for the key. -/
theorem isSome_findSome?_definition? :
    (b.searchOrder.findSome? (b.definition? files tag key)).isSome = true ↔
      key ≠ [] ∧ ∃ root ∈ b.roots, b.Mentions files tag key root := by
  rw [List.findSome?_isSome_iff]
  simp only [mem_searchOrder_iff]
  by_cases hkey : key = []
  · simp [Option.isSome_iff_exists, definition?_eq_some_iff, hkey]
  · simp only [Option.isSome_iff_ne_none, ne_eq, definition?_eq_none_iff hkey, hkey,
      not_false_eq_true, not_not, true_and]

/-! ## Section 5: A locale -/

/-- **The messages and the sources of a locale.** When each of its files can be read or is not
found, the locale is loaded. It has a message for the keys that some file has an entry for; its text
is that of the last entry in the file of the root that settles the key. The sources are the files
that are there, in root order. The two policies are each other's reverse. -/
theorem loadLocale_exact (b : Bundle) (files : FileTree) (tag : LocaleTag)
    (hfiles : ∀ root ∈ b.roots, files.readText (b.resourcePath root tag) = .error .notFound ∨
      ∃ content, files.readText (b.resourcePath root tag) = .ok content) :
    (∃ m, (b.loadLocale files tag).result = .ok m ∧ m.locale = tag ∧
      (∀ key, m.messages.contains key = true ↔
        key ≠ [] ∧ ∃ root ∈ b.roots, b.Mentions files tag key root) ∧
      (∀ key value, m.messages.get? key = some value ↔
        key ≠ [] ∧ b.Settles files tag key value) ∧
      m.sources = (b.roots.filter fun root => files.pathExists (b.resourcePath root tag)).map
        (b.resourcePath · tag)) ∧
    ∃ first last,
      (loadLocale { b with overridePolicy := .firstRootWins } files tag).result = .ok first ∧
      (loadLocale { b with overridePolicy := .lastRootWins, roots := b.roots.reverse }
        files tag).result = .ok last ∧
      first.messages = last.messages := by
  have hreads : ∀ root ∈ b.roots, ∀ e,
      files.readText (b.resourcePath root tag) = .error e → e = .notFound := by
    intro root hroot e hread
    obtain habsent | ⟨content, hcontent⟩ := hfiles root hroot
    · exact Except.error.inj (hread.symm.trans habsent)
    · cases hread.symm.trans hcontent
  have hloaded : ∀ b' : Bundle,
      (∀ root ∈ b'.roots, ∀ e,
        files.readText (b'.resourcePath root tag) = .error e → e = .notFound) →
      (b'.loadLocale files tag).result = .ok (b'.gatheredMessages files tag) := by
    intro b' hreads'
    rw [result_loadLocale, readFailures_eq_nil_iff.mpr hreads']
    rfl
  refine ⟨⟨_, hloaded b hreads, locale_gatheredMessages, ?_, ?_, ?_⟩,
    _, _, hloaded { b with overridePolicy := .firstRootWins } hreads,
    hloaded { b with overridePolicy := .lastRootWins, roots := b.roots.reverse } ?_,
    messages_reversed b files tag⟩
  · intro key
    rw [Table.contains, get?_gatheredMessages, isSome_findSome?_definition?]
  · intro key value
    rw [get?_gatheredMessages, findSome?_definition?_iff]
  · rw [sources_gatheredMessages]
    congr 1
    apply List.filter_congr
    intro root hroot
    have habsent := FileTree.pathExists_eq_false_iff (hreads root hroot)
    rw [document?]
    cases hread : files.readText (b.resourcePath root tag) with
    | error e =>
      rw [habsent.mpr fun content hcontent => by cases hread.symm.trans hcontent]
      rfl
    | ok content =>
      cases hexists : files.pathExists (b.resourcePath root tag) with
      | true => rfl
      | false => exact absurd hread (habsent.mp hexists content)
  · intro root hroot
    exact hreads root (List.mem_reverse.mp hroot)

/-- A key that is defined twice in one file and again under a later root, beside a root without the
file. The roots are named from the root of the tree, below the working directory, and beside it. -/
theorem loadLocale_exact_twice :
    let en : LocaleTag := ⟨"en".toList, none, some "GB".toList, []⟩
    let b : Bundle :=
      ⟨"messages".toList, "app.".toList, en, [en],
        ["/srv/base".toList, "none".toList, "../own".toList],
        .firstRootWins, List.pairwise_singleton _ _, List.mem_singleton_self _⟩
    let directory (name : String) : Place := ["srv".toList, name.toList]
    let place (root : String) : Place := directory root ++ ["messages_en_GB.properties".toList]
    let files : FileTree :=
      ((((FileTree.workingIn (directory "work")).put (directory "base") .directory).put
        (directory "own") .directory).put (place "base")
          (.file (Text.Utf8.encode "app.a=1\napp.a=2\nb=3\n".toList))).put (place "own")
          (.file (Text.Utf8.encode "app.a=4\n".toList))
    (∀ root ∈ b.roots, files.readText (b.resourcePath root en) = .error .notFound ∨
        ∃ content, files.readText (b.resourcePath root en) = .ok content) ∧
      ∃ m, (b.loadLocale files en).result = .ok m ∧
        m.messages.get? "a".toList = some "2".toList ∧
        m.messages.contains "b".toList = false ∧
        m.sources = ["/srv/base/messages_en_GB.properties".toList,
          "../own/messages_en_GB.properties".toList] := by
  intro en b directory place files
  have hbase : files.readText (b.resourcePath "/srv/base".toList en) =
      .ok "app.a=1\napp.a=2\nb=3\n".toList := by decide +kernel
  have hnone : files.readText (b.resourcePath "none".toList en) = .error .notFound := by
    decide +kernel
  have hown : files.readText (b.resourcePath "../own".toList en) = .ok "app.a=4\n".toList := by
    decide +kernel
  have hfiles : ∀ root ∈ b.roots, files.readText (b.resourcePath root en) = .error .notFound ∨
      ∃ content, files.readText (b.resourcePath root en) = .ok content := by
    intro root hroot
    obtain rfl | rfl | rfl : root = "/srv/base".toList ∨ root = "none".toList ∨
        root = "../own".toList := by
      simpa [b] using hroot
    · exact .inr ⟨_, hbase⟩
    · exact .inl hnone
    · exact .inr ⟨_, hown⟩
  have hparse : Properties.parse "app.a=1\napp.a=2\nb=3\n".toList =
      [("app.a".toList, "1".toList), ("app.a".toList, "2".toList), ("b".toList, "3".toList)] := by
    decide +kernel
  have hparse' : Properties.parse "app.a=4\n".toList = [("app.a".toList, "4".toList)] := by
    decide +kernel
  obtain ⟨⟨m, hresult, _, hkeys, hvalues, hsources⟩, _⟩ := loadLocale_exact b files en hfiles
  refine ⟨hfiles, m, hresult, ?_, ?_, ?_⟩
  · refine (hvalues _ _).mpr ⟨by decide, [], "/srv/base".toList, _, rfl, ⟨_, hbase, ?_⟩, ?_⟩
    · rw [hparse]
      exact ⟨[("app.a".toList, "1".toList)], [("b".toList, "3".toList)], rfl, by decide⟩
    · exact fun other hother => absurd hother List.not_mem_nil
  · -- the entry without the prefix is out of scope
    rw [← Bool.not_eq_true, hkeys]
    rintro ⟨_, root, hroot, content, hread, value, hmem⟩
    obtain rfl | rfl | rfl : root = "/srv/base".toList ∨ root = "none".toList ∨
        root = "../own".toList := by
      simpa [b] using hroot
    · obtain rfl := Except.ok.inj (hbase.symm.trans hread)
      rw [hparse] at hmem
      simp [b] at hmem
    · cases hnone.symm.trans hread
    · obtain rfl := Except.ok.inj (hown.symm.trans hread)
      rw [hparse'] at hmem
      simp [b] at hmem
  · rw [hsources]
    decide +kernel

/-- A root that is a regular file: there is no file of the locale under it, and the one under the
other root can be read, but still the locale is not loaded. -/
theorem loadLocale_blocked_root :
    let en : LocaleTag := ⟨"en".toList, none, some "GB".toList, []⟩
    let b : Bundle :=
      ⟨"messages".toList, [], en, [en], ["blocked".toList, "res".toList], .lastRootWins,
        List.pairwise_singleton _ _, List.mem_singleton_self _⟩
    let files : FileTree :=
      ((FileTree.empty.put ["blocked".toList] (.file (Text.Utf8.encode "x".toList))).put
        ["res".toList] .directory).put ["res".toList, "messages_en_GB.properties".toList]
          (.file (Text.Utf8.encode "a=Hello\n".toList))
    (∀ root ∈ b.roots, files.pathExists (b.resourcePath root en) = false ∨
        ∃ content, files.readText (b.resourcePath root en) = .ok content) ∧
      (b.loadLocale files en).result =
        .error (.unreadable "blocked/messages_en_GB.properties".toList .notDirectory) := by
  intro en b files
  have hblocked : files.pathExists (b.resourcePath "blocked".toList en) = false := by
    decide +kernel
  have hread : files.readText (b.resourcePath "res".toList en) = .ok "a=Hello\n".toList := by
    decide +kernel
  refine ⟨?_, ?_⟩
  · intro root hroot
    obtain rfl | rfl : root = "blocked".toList ∨ root = "res".toList := by simpa [b] using hroot
    · exact .inl hblocked
    · exact .inr ⟨_, hread⟩
  · have hfirst : b.readFailures files en =
        [.unreadable "blocked/messages_en_GB.properties".toList .notDirectory] := by
      decide +kernel
    rw [result_loadLocale, hfirst]
    rfl

end Bundle

end MessageCatalog
