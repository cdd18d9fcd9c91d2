import MessageCatalog.Proofs.ValidationOutcome

/-!
# The outcome of a loading

The reads of a loading come in a fixed order, and the first failure ends it. This module says what
can fail in which place, without reference to the loops: a loading gives the first of these failures,
and if there is none, the messages of every tracked locale. What is loaded is validated without
further failure, and a locale without files lacks every key of the main locale.

## Main statements

* `result_loadLocale` : the messages of a locale, or its first failure
* `result_loadAll` : the messages of all tracked locales, or the first failure
* `errors_of_absent` : the problems of a locale without files
* `loadAll_exact` : when a bundle is loaded, what is loaded, and what fails otherwise
-/

namespace MessageCatalog

/-! ## Section 1: The first failure of a run -/

/-- The outcome of a run whose failures, in the order in which they are met, and value are known. -/
def firstFailure {ε α : Type} (failures : List ε) (value : α) : Except ε α :=
  match failures with
  | [] => .ok value
  | e :: _ => .error e

/-- The failure of a run, if it fails. -/
def failureOf {ε α : Type} : Except ε α → List ε
  | .ok _ => []
  | .error e => [e]

section FirstFailure

variable {ε α β σ : Type}

theorem firstFailure_eq_ok_iff {failures : List ε} {value a : α} :
    firstFailure failures value = .ok a ↔ failures = [] ∧ value = a := by
  cases failures <;> simp [firstFailure]

theorem firstFailure_eq_error_iff {failures : List ε} {value : α} {e : ε} :
    firstFailure failures value = .error e ↔ failures.head? = some e := by
  cases failures <;> simp [firstFailure]

/-- The failures of two runs in turn are met in turn. -/
theorem firstFailure_bind {failures others : List ε} {a : α} {b : β} {f : α → Except ε β}
    (h : f a = firstFailure others b) :
    (firstFailure failures a >>= f) = firstFailure (failures ++ others) b := by
  cases failures with
  | nil => exact h
  | cons e rest => rfl

theorem firstFailure_bind_ok {failures : List ε} {a : α} {b : β} {f : α → Except ε β}
    (h : f a = .ok b) : (firstFailure failures a >>= f) = firstFailure failures b := by
  cases failures with
  | nil => exact h
  | cons e rest => rfl

/-- A loop whose steps fail whatever the state is. -/
theorem foldlM_eq_firstFailure {f : σ → α → Except ε σ} {failures : α → List ε} {step : σ → α → σ}
    (h : ∀ s a, f s a = firstFailure (failures a) (step s a)) (s : σ) (l : List α) :
    l.foldlM f s = firstFailure (l.flatMap failures) (l.foldl step s) := by
  induction l generalizing s with
  | nil => rfl
  | cons a l ih =>
    rw [List.foldlM_cons, h, List.flatMap_cons, List.foldl_cons]
    exact firstFailure_bind (ih (step s a))

/-- A run over each element of a list. -/
theorem mapM_eq_firstFailure {f : α → Except ε β} {failures : α → List ε} {value : α → β}
    (h : ∀ a, f a = firstFailure (failures a) (value a)) (l : List α) :
    l.mapM f = firstFailure (l.flatMap failures) (l.map value) := by
  induction l with
  | nil => rfl
  | cons a l ih =>
    rw [List.mapM_cons, h, ih, List.flatMap_cons, List.map_cons]
    apply firstFailure_bind
    exact firstFailure_bind_ok rfl

namespace Logged

theorem result_foldlM (f : σ → α → Logged ε σ) (s : σ) (l : List α) :
    (l.foldlM f s).result = l.foldlM (fun s a => (f s a).result) s := by
  induction l generalizing s with
  | nil => rfl
  | cons a l ih =>
    rw [List.foldlM_cons, List.foldlM_cons, result_bind]
    exact congrArg _ (funext ih)

theorem result_mapM (f : α → Logged ε β) (l : List α) :
    (l.mapM f).result = l.mapM fun a => (f a).result := by
  suffices hloop : ∀ done, (List.mapM.loop f l done).result =
      List.mapM.loop (fun a => (f a).result) l done by
    exact hloop []
  induction l with
  | nil => exact fun _ => rfl
  | cons a l ih =>
    intro done
    simp only [List.mapM.loop, result_bind, ih]

end Logged

end FirstFailure

/-! ## Section 2: One locale -/

namespace Bundle

variable (b : Bundle) (files : FileTree) (tag : LocaleTag)

/-- The failures of reading the files of a locale, in root order. -/
def readFailures : List BundleError :=
  b.roots.flatMap fun root => failureOf (readResource files (b.resourcePath root tag))

/-- The document of a locale under a root, if it can be read. -/
def document? (root : Path) : Option Text := (files.readText (b.resourcePath root tag)).toOption

/-- The documents of a locale that can be read, in root order. -/
def documents : List Text := b.roots.filterMap (b.document? files tag)

/-- What is gathered when a document under a root has been taken, if there is one. -/
def takeDocument (gathered : LocaleMessages) (root : Path) : Option Text → LocaleMessages
  | none => gathered
  | some content =>
    { gathered with
      messages := mergeMessages b.overridePolicy gathered.messages (b.fileMessages content)
      sources := gathered.sources ++ [b.resourcePath root tag] }

/-- What is gathered when the file of a locale under a root has been taken. -/
def takeFile (gathered : LocaleMessages) (root : Path) : LocaleMessages :=
  b.takeDocument tag gathered root (b.document? files tag root)

/-- The messages of a locale from all files that are there. -/
def gatheredMessages : LocaleMessages :=
  b.roots.foldl (b.takeFile files tag) (LocaleMessages.empty tag)

/-- One file of a locale fails, or it is taken if it is there. -/
theorem result_loadFile (gathered : LocaleMessages) (root : Path) :
    (b.loadFile files tag gathered root).result =
      firstFailure (failureOf (readResource files (b.resourcePath root tag)))
        (b.takeFile files tag gathered root) := by
  delta loadFile
  rw [takeFile, document?]
  cases hread : files.readText (b.resourcePath root tag) with
  | ok content =>
    simp only [readResource, hread]
    rfl
  | error e =>
    cases e <;> (simp only [readResource, hread]; rfl)

/-- **A locale gives its first failure**, or else what its files hold. -/
theorem result_loadLocale :
    (b.loadLocale files tag).result =
      firstFailure (b.readFailures files tag) (b.gatheredMessages files tag) := by
  rw [loadLocale, Logged.result_foldlM]
  exact foldlM_eq_firstFailure (b.result_loadFile files tag) _ _

variable {b files tag}

theorem readFailures_eq_nil_iff :
    b.readFailures files tag = [] ↔
      ∀ root ∈ b.roots, ∀ e, files.readText (b.resourcePath root tag) = .error e →
        e = .notFound := by
  rw [readFailures, List.flatMap_eq_nil_iff]
  refine forall₂_congr fun root _ => ?_
  unfold readResource
  cases files.readText (b.resourcePath root tag) with
  | ok content => simp [failureOf]
  | error e => cases e <;> simp [failureOf]

theorem locale_gatheredMessages : (b.gatheredMessages files tag).locale = tag := by
  have hrun : ∀ (roots : List Path) (gathered : LocaleMessages),
      (roots.foldl (b.takeFile files tag) gathered).locale = gathered.locale := by
    intro roots
    induction roots with
    | nil => exact fun _ => rfl
    | cons root roots ih =>
      intro gathered
      rw [List.foldl_cons, ih, takeFile]
      cases b.document? files tag root <;> rfl
  exact hrun b.roots _

/-- A locale is present when it has a document. -/
theorem isPresent_gatheredMessages :
    (b.gatheredMessages files tag).isPresent = !(b.documents files tag).isEmpty := by
  have hrun : ∀ (roots : List Path) (gathered : LocaleMessages),
      (roots.foldl (b.takeFile files tag) gathered).isPresent =
        (gathered.isPresent || !(roots.filterMap (b.document? files tag)).isEmpty) := by
    intro roots
    induction roots with
    | nil => simp
    | cons root roots ih =>
      intro gathered
      rw [List.foldl_cons, ih, takeFile]
      cases hdocument : b.document? files tag root with
      | none => simp [takeDocument, hdocument]
      | some content => simp [takeDocument, hdocument, LocaleMessages.isPresent]
  exact (hrun b.roots _).trans (Bool.false_or _)

end Bundle

namespace Table

variable {κ ν : Type} [Ord κ] [Std.TransOrd κ]

theorem isEmpty_insert (t : Table κ ν) (k : κ) (v : ν) : (t.insert k v).isEmpty = false := by
  obtain ⟨entries, _⟩ := t
  cases entries with
  | nil => rfl
  | cons e rest =>
    simp only [insert, isEmpty, insertEntry]
    split <;> rfl

theorem isEmpty_insertNew (t : Table κ ν) (k : κ) (v : ν) : (t.insertNew k v).isEmpty = false := by
  unfold insertNew
  split
  · rename_i hcontains
    obtain ⟨entries, _⟩ := t
    cases entries with
    | nil => cases hcontains
    | cons e rest => rfl
  · exact isEmpty_insert t k v

omit [Std.TransOrd κ] in
/-- A table that some entries have been put into is empty when it was and there were none. -/
theorem isEmpty_foldl {put : Table κ ν → κ × ν → Table κ ν}
    (hput : ∀ t e, (put t e).isEmpty = false) (t : Table κ ν) (entries : List (κ × ν)) :
    (entries.foldl put t).isEmpty = (t.isEmpty && entries.isEmpty) := by
  induction entries generalizing t with
  | nil => simp
  | cons e rest ih => rw [List.foldl_cons, ih, hput, List.isEmpty_cons, Bool.false_and, Bool.and_false]

theorem isEmpty_ofList (entries : List (κ × ν)) : (ofList entries).isEmpty = entries.isEmpty :=
  isEmpty_foldl (fun t e => isEmpty_insert t e.1 e.2) empty entries

end Table

namespace Bundle

variable {b : Bundle} {files : FileTree} {tag : LocaleTag}

theorem isEmpty_mergeMessages (policy : OverridePolicy) (gathered file : Table Text Text) :
    (mergeMessages policy gathered file).isEmpty = (gathered.isEmpty && file.isEmpty) := by
  cases policy with
  | lastRootWins => exact Table.isEmpty_foldl (fun t e => t.isEmpty_insert e.1 e.2) gathered _
  | firstRootWins => exact Table.isEmpty_foldl (fun t e => t.isEmpty_insertNew e.1 e.2) gathered _

/-- A locale has no messages when none of its documents has an entry in scope. -/
theorem isEmpty_gatheredMessages :
    (b.gatheredMessages files tag).messages.isEmpty =
      (b.documents files tag).all fun content => (b.entriesInScope content).isEmpty := by
  have hrun : ∀ (roots : List Path) (gathered : LocaleMessages),
      (roots.foldl (b.takeFile files tag) gathered).messages.isEmpty =
        (gathered.messages.isEmpty && (roots.filterMap (b.document? files tag)).all
          fun content => (b.entriesInScope content).isEmpty) := by
    intro roots
    induction roots with
    | nil => simp
    | cons root roots ih =>
      intro gathered
      rw [List.foldl_cons, ih, takeFile]
      cases hdocument : b.document? files tag root with
      | none => simp [takeDocument, hdocument]
      | some content =>
        simp [takeDocument, hdocument, isEmpty_mergeMessages, fileMessages, Table.isEmpty_ofList,
          Bool.and_assoc]
  exact (hrun b.roots _).trans (Bool.true_and _)

/-- A locale without files has no messages. -/
theorem gatheredMessages_of_absent
    (h : ∀ root ∈ b.roots, files.readText (b.resourcePath root tag) = .error .notFound) :
    b.gatheredMessages files tag = LocaleMessages.empty tag := by
  unfold gatheredMessages
  generalize LocaleMessages.empty tag = gathered
  revert h
  induction b.roots with
  | nil => exact fun _ => rfl
  | cons root roots ih =>
    intro h
    have hroot : b.takeFile files tag gathered root = gathered := by
      rw [takeFile, document?, h root List.mem_cons_self]
      rfl
    rw [List.foldl_cons, hroot]
    exact ih fun root' hroot' => h root' (List.mem_cons_of_mem root hroot')

/-! ## Section 3: The bundle -/

/-- The failures of loading the main locale: those of its files, then that there are none, then that
they have no key in scope. -/
def mainFailures (b : Bundle) (files : FileTree) : List BundleError :=
  b.readFailures files b.mainLocale ++
    (if (b.documents files b.mainLocale).isEmpty then
      [.resourceNotFound b.name b.mainLocale.text (b.resourceFile b.mainLocale) b.roots]
    else []) ++
    (if (b.documents files b.mainLocale).all fun content => (b.entriesInScope content).isEmpty then
      [.noKeysInScope b.keyPrefix b.mainLocale.text]
    else [])

/-- **The failures of loading a bundle**, in the order in which they are met: those of the main
locale, and then those of the files of the other locales. -/
def loadFailures (b : Bundle) (files : FileTree) : List BundleError :=
  b.mainFailures files ++ b.secondaryLocales.flatMap (b.readFailures files)

/-- The messages of every tracked locale. -/
def loadedMaps (b : Bundle) (files : FileTree) : Table LocaleTag LocaleMessages :=
  Table.ofList ((b.mainLocale :: b.secondaryLocales).map fun tag =>
    (tag, b.gatheredMessages files tag))

theorem result_loadMain (b : Bundle) (files : FileTree) :
    (b.loadMain files).result =
      firstFailure (b.mainFailures files) (b.gatheredMessages files b.mainLocale) := by
  rw [loadMain, Logged.result_bind, result_loadLocale, mainFailures, List.append_assoc]
  apply firstFailure_bind
  rw [isPresent_gatheredMessages, isEmpty_gatheredMessages]
  cases (b.documents files b.mainLocale).isEmpty with
  | true => rfl
  | false =>
    cases (b.documents files b.mainLocale).all fun content => (b.entriesInScope content).isEmpty with
    | true => rfl
    | false => rfl

theorem result_loadSecondary (b : Bundle) (files : FileTree) (tag : LocaleTag) :
    (b.loadSecondary files tag).result =
      firstFailure (b.readFailures files tag) (b.gatheredMessages files tag) := by
  rw [loadSecondary, Logged.result_bind, result_loadLocale]
  apply firstFailure_bind_ok
  cases (b.gatheredMessages files tag).isPresent with
  | false => rfl
  | true => rfl

/-- **A bundle gives the first failure of its loading**, or else the messages of its locales. -/
theorem result_loadAll (b : Bundle) (files : FileTree) :
    (b.loadAll files).result = firstFailure (b.loadFailures files) (b.loadedMaps files) := by
  rw [loadAll_result, result_loadMain, Logged.result_mapM,
    mapM_eq_firstFailure (b.result_loadSecondary files)]
  apply firstFailure_bind
  apply firstFailure_bind_ok
  simp only [loadedMaps, List.map_cons, List.map_map, locale_gatheredMessages]
  have hothers : ((fun m : LocaleMessages => (m.locale, m)) ∘ b.gatheredMessages files) =
      fun tag => (tag, b.gatheredMessages files tag) := by
    funext tag
    exact congrArg (·, b.gatheredMessages files tag) locale_gatheredMessages
  rw [hothers]
  rfl

/-! ## Section 4: What is loaded -/

theorem mem_locales_iff : tag ∈ b.mainLocale :: b.secondaryLocales ↔ tag ∈ b.locales := by
  rw [List.mem_cons, Validation.mem_secondaryLocales_iff]
  constructor
  · rintro (rfl | ⟨htag, _⟩)
    · exact b.main_mem
    · exact htag
  · intro htag
    by_cases hmain : tag = b.mainLocale
    · exact .inl hmain
    · exact .inr ⟨htag, hmain⟩

/-- The messages that are loaded are those of the tracked locales. -/
theorem mem_loadedMaps_iff {m : LocaleMessages} :
    (tag, m) ∈ (b.loadedMaps files).entries ↔
      tag ∈ b.locales ∧ m = b.gatheredMessages files tag := by
  have hkeys : ∀ e ∈ (b.mainLocale :: b.secondaryLocales).map
        (fun tag => (tag, b.gatheredMessages files tag)),
      ∀ e' ∈ (b.mainLocale :: b.secondaryLocales).map
        (fun tag => (tag, b.gatheredMessages files tag)),
      compare e.1 e'.1 = .eq → e = e' := by
    simp only [List.mem_map, mem_locales_iff]
    rintro _ ⟨tag, htag, rfl⟩ _ ⟨tag', htag', rfl⟩ hcompare
    rw [b.ascending.eq_of_compare htag htag' hcompare]
  rw [loadedMaps, Table.mem_ofList_iff hkeys, List.mem_map]
  simp only [mem_locales_iff, Prod.mk.injEq]
  constructor
  · rintro ⟨_, htag, rfl, rfl⟩
    exact ⟨htag, rfl⟩
  · rintro ⟨htag, rfl⟩
    exact ⟨tag, htag, rfl, rfl⟩

/-- There is one map for each tracked locale. -/
theorem keys_loadedMaps (b : Bundle) (files : FileTree) : (b.loadedMaps files).keys = b.locales := by
  apply Ordered.Ascending.eq_of_mem_iff (Table.ascending_keys _) b.ascending
  intro tag
  rw [Table.keys, List.mem_map]
  constructor
  · rintro ⟨⟨tag, m⟩, hmem, rfl⟩
    exact (mem_loadedMaps_iff.mp hmem).1
  · intro htag
    exact ⟨(tag, b.gatheredMessages files tag), mem_loadedMaps_iff.mpr ⟨htag, rfl⟩, rfl⟩

theorem get?_loadedMaps (htag : tag ∈ b.locales) :
    (b.loadedMaps files).get? tag = some (b.gatheredMessages files tag) :=
  Table.get?_of_mem (mem_loadedMaps_iff.mpr ⟨htag, rfl⟩)

end Bundle

/-! ## Section 5: Locales without files -/

namespace Validation

variable {b : Bundle} {maps : Table LocaleTag LocaleMessages} {tag : LocaleTag}

/-- The keys of the main locale among those that some tracked locale has. -/
theorem filter_knownKeys :
    (knownKeys b maps).filter (fun key => (templateIn maps key b.mainLocale).isSome) =
      (mainMessages b maps).keys := by
  have hknown : Ordered.Ascending (knownKeys b maps) := Ordered.ascending_insertAll .nil
  apply Ordered.Ascending.eq_of_mem_iff (hknown.filter _) (Table.ascending_keys _)
  intro key
  rw [List.mem_filter, mem_knownKeys_iff, ← Table.contains_iff_mem_keys, Table.contains,
    get?_mainMessages]
  exact and_iff_right_of_imp fun hmain => ⟨b.mainLocale, b.main_mem, hmain⟩

/-- **A locale that has no key lacks every key of the main locale**, and has no other problem. -/
theorem errors_of_absent (htag : tag ∈ b.secondaryLocales)
    (h : ∀ key, templateIn maps key tag = none) :
    (b.validate maps).errors.filter (fun e => e.locale = some tag) =
      (mainMessages b maps).keys.map (missing · tag) := by
  obtain ⟨htracked, hmain⟩ := mem_secondaryLocales_iff.mp htag
  -- of the problems of a key only those of this locale are left
  have hplace : ∀ key, (b.locales.flatMap (problemsAt b maps key)).filter
      (fun e => e.locale = some tag) = problemsAt b maps key tag := by
    intro key
    rw [Ordered.filter_flatMap_of_unique _ _ tag b.ascending.nodup, if_pos htracked]
    intro other _ e he
    simp only [(place_of_mem_problemsAt he).2, Option.some.injEq]
  have hproblems : ∀ key, problemsAt b maps key tag =
      if (templateIn maps key b.mainLocale).isSome then [missing key tag] else [] := by
    intro key
    unfold problemsAt
    cases templateIn maps key b.mainLocale with
    | none => simp [h]
    | some template => simp [h, hmain, secondaryProblems]
  rw [(validate_exact b maps).1, List.filter_flatMap, List.flatMap_congr fun key _ => hplace key,
    List.flatMap_congr fun key _ => hproblems key, ← filter_knownKeys]
  induction knownKeys b maps with
  | nil => rfl
  | cons key keys ih =>
    rw [List.flatMap_cons, ih, List.filter_cons]
    split
    · rfl
    · rfl

end Validation

namespace FileTree

/-- A path leads nowhere when reading it fails, and fails because nothing is there. -/
theorem pathExists_eq_false_iff {files : FileTree} {path : Path}
    (h : ∀ e, files.readText path = .error e → e = .notFound) :
    files.pathExists path = false ↔ ∀ content, files.readText path ≠ .ok content := by
  unfold pathExists
  cases hfind : files.find path with
  | error e => simp [readText, readBytes, hfind, Except.isOk, Except.toBool, bind, Except.bind]
  | ok found =>
    obtain ⟨place, entry⟩ := found
    cases hread : files.readText path with
    | ok content => simp [Except.isOk, Except.toBool]
    | error e =>
      obtain rfl := h e hread
      -- what is there is a directory, or its bytes are no text
      cases entry with
      | directory => simp [readText, readBytes, hfind, bind, Except.bind] at hread
      | file bytes =>
        simp only [readText, readBytes, hfind, bind, Except.bind] at hread
        split at hread <;> cases hread

end FileTree

namespace Bundle

open Validation

theorem mem_documents_iff {b : Bundle} {files : FileTree} {tag : LocaleTag} {content : Text} :
    content ∈ b.documents files tag ↔
      ∃ root ∈ b.roots, files.readText (b.resourcePath root tag) = .ok content := by
  simp only [documents, document?, List.mem_filterMap]
  refine exists_congr fun root => and_congr_right fun _ => ?_
  cases files.readText (b.resourcePath root tag) <;> simp [Except.toOption]

/-- Nothing fails when the main locale has a key in scope and every file can be read or is not
there. -/
theorem loadFailures_eq_nil_iff {b : Bundle} {files : FileTree} :
    b.loadFailures files = [] ↔
      (∃ content ∈ b.documents files b.mainLocale, b.entriesInScope content ≠ []) ∧
        ∀ tag ∈ b.locales, ∀ root ∈ b.roots, ∀ e,
          files.readText (b.resourcePath root tag) = .error e → e = .notFound := by
  have hlocales : (∀ tag ∈ b.locales, b.readFailures files tag = []) ↔
      b.readFailures files b.mainLocale = [] ∧
        ∀ tag ∈ b.secondaryLocales, b.readFailures files tag = [] := by
    simp only [← mem_locales_iff, List.forall_mem_cons]
  have hkeys : ((b.documents files b.mainLocale).all
        fun content => (b.entriesInScope content).isEmpty) = false ↔
      ∃ content ∈ b.documents files b.mainLocale, b.entriesInScope content ≠ [] := by
    simp
  simp only [← readFailures_eq_nil_iff]
  rw [hlocales, ← hkeys]
  simp only [loadFailures, mainFailures, List.append_eq_nil_iff, List.flatMap_eq_nil_iff,
    ite_eq_right_iff, List.cons_ne_nil, imp_false, Bool.not_eq_true]
  constructor
  · rintro ⟨⟨⟨hmain, _⟩, hscope⟩, hothers⟩
    exact ⟨hscope, hmain, hothers⟩
  · rintro ⟨hscope, hmain, hothers⟩
    refine ⟨⟨⟨hmain, ?_⟩, hscope⟩, hothers⟩
    -- without a document there would be no key in scope
    cases hdocuments : b.documents files b.mainLocale with
    | nil =>
      rw [hdocuments] at hscope
      cases hscope
    | cons content rest => rfl

/-- **When a bundle is loaded, what is loaded, and what fails otherwise.** A bundle is loaded exactly
when its main locale has a file and a key in scope and no file of a tracked locale fails for another
reason than that it is not there. Otherwise the first failure in the order of the reads is given. There
is then one map for each tracked locale, that of its files, and it can be validated; a locale without
files has an empty one, and for its problems it lacks each key of the main locale once. -/
theorem loadAll_exact (b : Bundle) (files : FileTree) :
    ((∃ maps, (b.loadAll files).result = .ok maps) ↔
      (∃ root ∈ b.roots, files.pathExists (b.resourcePath root b.mainLocale) = true) ∧
        (∃ content ∈ b.documents files b.mainLocale, b.entriesInScope content ≠ []) ∧
        ∀ tag ∈ b.locales, ∀ root ∈ b.roots, ∀ e,
          files.readText (b.resourcePath root tag) = .error e → e = .notFound) ∧
      (∀ e, (b.loadAll files).result = .error e ↔ (b.loadFailures files).head? = some e) ∧
      ∀ maps, (b.loadAll files).result = .ok maps →
        maps.keys = b.locales ∧
          (∀ tag ∈ b.locales, ∃ m, maps.get? tag = some m ∧ (b.loadLocale files tag).result = .ok m) ∧
          (b.loadAndValidate files).result = .ok (b.validate maps) ∧
          ∀ tag ∈ b.secondaryLocales,
            (∀ root ∈ b.roots, files.pathExists (b.resourcePath root tag) = false) →
              maps.get? tag = some (LocaleMessages.empty tag) ∧
                (b.validate maps).errors.filter (fun e => e.locale = some tag) =
                  (mainMessages b maps).keys.map (missing · tag) := by
  have hnil : b.loadFailures files = [] ↔ _ := loadFailures_eq_nil_iff
  rw [result_loadAll]
  refine ⟨?_, fun e => firstFailure_eq_error_iff, ?_⟩
  · simp only [firstFailure_eq_ok_iff, exists_and_left, exists_eq', and_true, hnil]
    refine ⟨fun h => ⟨?_, h⟩, And.right⟩
    obtain ⟨⟨content, hcontent, _⟩, hreads⟩ := h
    obtain ⟨root, hroot, hread⟩ := mem_documents_iff.mp hcontent
    refine ⟨root, hroot, ?_⟩
    by_contra hexists
    have habsent := (FileTree.pathExists_eq_false_iff (hreads _ b.main_mem root hroot)).mp
      (by simpa using hexists)
    exact habsent content hread
  · intro maps hmaps
    obtain ⟨hfailures, rfl⟩ := firstFailure_eq_ok_iff.mp hmaps
    obtain ⟨_, hreads⟩ := hnil.mp hfailures
    refine ⟨b.keys_loadedMaps files, ?_, ?_, ?_⟩
    · intro tag htag
      refine ⟨_, get?_loadedMaps htag, ?_⟩
      rw [result_loadLocale, readFailures_eq_nil_iff.mpr (hreads tag htag)]
      rfl
    · rw [loadAndValidate, Logged.result_bind, result_loadAll, hfailures]
      rfl
    · intro tag htag habsent
      have htracked := (mem_secondaryLocales_iff.mp htag).1
      have hempty : b.gatheredMessages files tag = LocaleMessages.empty tag := by
        apply gatheredMessages_of_absent
        intro root hroot
        have hnone := (FileTree.pathExists_eq_false_iff (hreads tag htracked root hroot)).mp
          (habsent root hroot)
        cases hread : files.readText (b.resourcePath root tag) with
        | ok content => exact absurd hread (hnone content)
        | error e => rw [hreads tag htracked root hroot e hread]
      have hget : (b.loadedMaps files).get? tag = some (LocaleMessages.empty tag) :=
        (get?_loadedMaps htracked).trans (congrArg some hempty)
      refine ⟨hget, errors_of_absent htag fun key => ?_⟩
      rw [templateIn, hget]
      rfl

/-- A root that is a regular file: nothing is located under it, all located files can be read, and
still the bundle is not loaded. -/
theorem loadAll_blocked_root :
    let en : LocaleTag := ⟨"en".toList, none, some "GB".toList, []⟩
    let b : Bundle :=
      ⟨"messages".toList, [], en, [en], ["blocked".toList, "res".toList], .lastRootWins,
        List.pairwise_singleton _ _, List.mem_singleton_self _⟩
    let files : FileTree :=
      ((FileTree.empty.put ["blocked".toList] (.file (Text.Utf8.encode "x".toList))).put
        ["res".toList] .directory).put ["res".toList, "messages_en_GB.properties".toList]
          (.file (Text.Utf8.encode "a=Hello\n".toList))
    (∃ root ∈ b.roots, files.pathExists (b.resourcePath root b.mainLocale) = true) ∧
      (∃ content ∈ b.documents files b.mainLocale, b.entriesInScope content ≠ []) ∧
      (∀ tag ∈ b.locales, ∀ root ∈ b.roots,
        files.pathExists (b.resourcePath root tag) = true →
          ∃ content, files.readText (b.resourcePath root tag) = .ok content) ∧
      (b.loadAll files).result =
        .error (.unreadable "blocked/messages_en_GB.properties".toList .notDirectory) := by
  intro en b files
  have hexists : ∀ root ∈ b.roots,
      files.pathExists (b.resourcePath root en) = decide (root = "res".toList) := by
    decide +kernel
  have hread : files.readText (b.resourcePath "res".toList en) = .ok "a=Hello\n".toList := by
    decide +kernel
  have hroot : "res".toList ∈ b.roots := List.mem_cons_of_mem _ (List.mem_singleton_self _)
  refine ⟨⟨"res".toList, hroot, hexists _ hroot⟩, ⟨"a=Hello\n".toList, ?_, ?_⟩, ?_, ?_⟩
  · exact mem_documents_iff.mpr ⟨"res".toList, hroot, hread⟩
  · decide +kernel
  · intro tag htag root hroot hexists'
    obtain rfl := List.mem_singleton.mp htag
    rw [hexists root hroot] at hexists'
    obtain rfl := of_decide_eq_true hexists'
    exact ⟨_, hread⟩
  · rw [result_loadAll, firstFailure_eq_error_iff]
    have hfirst : b.readFailures files en =
        [.unreadable "blocked/messages_en_GB.properties".toList .notDirectory] := by
      decide +kernel
    rw [loadFailures, mainFailures, hfirst]
    rfl

end Bundle

end MessageCatalog
