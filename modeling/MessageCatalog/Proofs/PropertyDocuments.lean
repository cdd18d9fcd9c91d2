import MessageCatalog.Proofs.PropertyEscapes

/-!
# Property documents and their entries

A list of entries can be written as a property file in many ways: with blanks around keys and
separators, with three kinds of separators, with two kinds of line ends, and with blank lines and
comments in between. Reading any of these documents gives the list back.

The steps of reading run one after the other on the same characters. Each of them is followed along
the lines of the document: a written line is cut off at its end and nowhere else, it does not go on
with the next line, and what it adds to the result does not depend on the lines after it.

## Main statements

* `exists_lines_of_endsLine` : a written line is the first one of its document
* `readEntry_of_separates` : key and value are found on the two sides of the separator
* `yields_of_spellsLine` : a written line adds its own entries and leaves the other lines alone
* `parse_of_spellsDocument` : every written document is read back, and every list can be written
-/

namespace MessageCatalog.Properties

open Text

/-! ## Section 1: Ways to write a document -/

/-- A text of spaces, tabs and form feeds. -/
def Blanks (t : Text) : Prop := ∀ c ∈ t, c ∈ [' ', '\t', '\x0c']

instance (t : Text) : Decidable (Blanks t) := List.decidableBAll _ t

/-- The separators behind a written key. -/
inductive Separates (key : Text) : Text → Prop
  /-- A sign, with blanks around it. -/
  | sign {before after : Text} {c : Char} (hbefore : Blanks before) (hc : c = '=' ∨ c = ':')
      (hafter : Blanks after) : Separates key (before ++ c :: after)
  /-- Blanks alone. An empty key cannot be told from the value in this way. -/
  | blanks {t : Text} (hkey : key ≠ []) (ht : t ≠ []) (hblanks : Blanks t) : Separates key t

/-- The ways to write a line, without its end, and the entries that it holds. -/
inductive SpellsLine : List (Text × Text) → Text → Prop
  | blank {t : Text} (h : Blanks t) : SpellsLine [] t
  | comment {lead body : Text} {c : Char} (hlead : Blanks lead) (hc : c = '#' ∨ c = '!')
      (hbody : '\n' ∉ body) : SpellsLine [] (lead ++ c :: body)
  | entry {lead key writtenKey separator value writtenValue : Text} (hlead : Blanks lead)
      (hkey : Spells key writtenKey) (hseparator : Separates writtenKey separator)
      (hvalue : Spells value writtenValue) :
      SpellsLine [(key, value)] (lead ++ (writtenKey ++ (separator ++ writtenValue)))

/-- The ends of a line. -/
inductive EndsLine : Text → Prop
  | lineFeed : EndsLine ['\n']
  | returnLineFeed : EndsLine ['\r', '\n']

/-- **The ways to write a list of entries as a document**, line by line. The last line may do
without an end. -/
inductive SpellsDocument : List (Text × Text) → Text → Prop
  | last {entries : List (Text × Text)} {line : Text} (h : SpellsLine entries line) :
      SpellsDocument entries line
  | line {entries more : List (Text × Text)} {line lineEnd rest : Text}
      (h : SpellsLine entries line) (hend : EndsLine lineEnd) (hrest : SpellsDocument more rest) :
      SpellsDocument (entries ++ more) (line ++ (lineEnd ++ rest))

/-! ## Section 2: Blanks and separators -/

/-- A blank is a pad, and neither a backslash nor a line break. -/
theorem Blanks.isPad_of_mem {t : Text} {c : Char} (h : Blanks t) (hc : c ∈ t) :
    isPad c = true ∧ c ≠ '\\' ∧ c ≠ '\n' ∧ c ≠ '\r' := by
  have hblank := h c hc
  simp only [List.mem_cons, List.not_mem_nil, or_false] at hblank
  rcases hblank with rfl | rfl | rfl <;> decide

theorem Blanks.not_mem_lineBreak {t : Text} (h : Blanks t) : '\n' ∉ t ∧ '\r' ∉ t :=
  ⟨fun hn => (h.isPad_of_mem hn).2.2.1 rfl, fun hr => (h.isPad_of_mem hr).2.2.2 rfl⟩

@[simp] theorem Blanks.nil : Blanks [] := fun _ h => absurd h List.not_mem_nil

theorem dropPads_append {lead : Text} (h : Blanks lead) (t : Text) :
    dropPads (lead ++ t) = dropPads t :=
  List.dropWhile_append_of_pos fun _ hc => (h.isPad_of_mem hc).1

theorem dropPads_cons {c : Char} (h : isPad c = false) (t : Text) : dropPads (c :: t) = c :: t := by
  simp [dropPads, h]

/-- A written text has no pads to drop. -/
theorem dropPads_of_guarded {t : Text} (h : Guarded t) : dropPads t = t := by
  cases t with
  | nil => rfl
  | cons c t => exact dropPads_cons (head_of_guarded h).1 t

/-- The characters of a separator are blanks and signs. -/
theorem Separates.of_mem {key t : Text} {c : Char} (h : Separates key t) (hc : c ∈ t) :
    (c = '=' ∨ c = ':' ∨ isPad c = true) ∧ c ≠ '\\' ∧ c ≠ '\n' ∧ c ≠ '\r' := by
  have ofBlanks {t : Text} (h : Blanks t) (hc : c ∈ t) :
      (c = '=' ∨ c = ':' ∨ isPad c = true) ∧ c ≠ '\\' ∧ c ≠ '\n' ∧ c ≠ '\r' :=
    have hblank := h.isPad_of_mem hc
    ⟨.inr (.inr hblank.1), hblank.2⟩
  cases h with
  | blanks _ _ hblanks => exact ofBlanks hblanks hc
  | sign hbefore hsign hafter =>
    rcases List.mem_append.mp hc with hc | hc
    · exact ofBlanks hbefore hc
    rcases List.mem_cons.mp hc with rfl | hc
    · rcases hsign with rfl | rfl <;> decide
    · exact ofBlanks hafter hc

theorem Separates.ne_nil {key t : Text} (h : Separates key t) : t ≠ [] := by
  cases h with
  | sign => simp
  | blanks _ ht _ => exact ht

theorem continues_of_not_mem {t : Text} (h : '\\' ∉ t) : continues t = false := by
  induction t with
  | nil => rfl
  | cons c t ih =>
    have hc : c ≠ '\\' := fun he => h (he ▸ List.mem_cons_self)
    exact continues_append (t := [c]) (continues_singleton hc)
      (ih fun hm => h (List.mem_cons_of_mem c hm))

/-! ## Section 3: Key and value of a line -/

/-- The key ends where the separator begins. -/
theorem takeKey_of_separates {key t : Text} (h : Separates key t) (rest : Text) :
    takeKey false (t ++ rest) = ([], t ++ rest) := by
  obtain ⟨c, t, rfl⟩ := List.exists_cons_of_ne_nil h.ne_nil
  rw [List.cons_append, takeKey, if_pos (h.of_mem List.mem_cons_self).1]

/-- The value begins where the separator ends. -/
theorem dropSeparator_of_separates {key t value : Text} (h : Separates key t)
    (hvalue : Guarded value) : dropSeparator (t ++ value) = value := by
  cases h with
  | @sign before after c hbefore hc hafter =>
    have hpad : isPad c = false := by rcases hc with rfl | rfl <;> decide
    have hdrop : dropPads ((before ++ c :: after) ++ value) = c :: (after ++ value) := by
      rw [List.append_assoc, dropPads_append hbefore, List.cons_append, dropPads_cons hpad]
    simp only [dropSeparator, hdrop, if_pos hc, dropPads_append hafter, dropPads_of_guarded hvalue]
  | blanks _ _ hblanks =>
    have hdrop : dropPads (t ++ value) = value := by
      rw [dropPads_append hblanks, dropPads_of_guarded hvalue]
    cases value with
    | nil => simp only [dropSeparator, hdrop]
    | cons c value => simp only [dropSeparator, hdrop, if_neg (head_of_guarded hvalue).2.1]

/-- **Key and value are found on the two sides of the separator.** -/
theorem readEntry_of_separates {key writtenKey separator value writtenValue : Text}
    (hkey : Spells key writtenKey) (hseparator : Separates writtenKey separator)
    (hvalue : Spells value writtenValue) :
    readEntry (writtenKey ++ (separator ++ writtenValue)) = (key, value) := by
  have htake : takeKey false (writtenKey ++ (separator ++ writtenValue)) =
      (writtenKey, separator ++ writtenValue) := by
    rw [takeKey_append (guarded_of_spells hkey), takeKey_of_separates hseparator, List.append_nil]
  simp only [readEntry, htake, dropSeparator_of_separates hseparator (guarded_of_spells hvalue),
    unescape_of_spells hkey, unescape_of_spells hvalue]

/-! ## Section 4: Entries of a line -/

/-- A line whose entries are these, whatever lines follow it. -/
def Yields (entries : List (Text × Text)) (line : Text) : Prop :=
  ∀ rest, (logicalLines (line :: rest)).map readEntry =
    entries ++ (logicalLines rest).map readEntry

theorem logicalLines_cons_of_isPassedOver {raw : Text} (h : isPassedOver (dropPads raw) = true)
    (rest : List Text) : logicalLines (raw :: rest) = logicalLines rest := by
  rw [logicalLines, if_pos h]

theorem logicalLines_cons_of_entry {raw : Text} (h : isPassedOver (dropPads raw) = false)
    (rest : List Text) :
    logicalLines (raw :: rest) = (joinContinued (dropPads raw) rest).1 ::
      logicalLines (joinContinued (dropPads raw) rest).2 := by
  rw [logicalLines, if_neg (by simp [h])]

theorem yields_of_isPassedOver {line : Text} (h : isPassedOver (dropPads line) = true) :
    Yields [] line := by
  intro rest
  rw [logicalLines_cons_of_isPassedOver h, List.nil_append]

theorem joinContinued_of_not_continues {line : Text} (h : continues line = false)
    (rest : List Text) : joinContinued line rest = (line, rest) := by
  cases rest with
  | nil => simp [joinContinued, h]
  | cons next rest => simp [joinContinued, h]

/-- A line that is not passed over and does not go on with the next one holds the entry that is read
from it. -/
theorem yields_readEntry {line logical : Text} (hline : dropPads line = logical)
    (hpassed : isPassedOver logical = false) (hcontinues : continues logical = false) :
    Yields [readEntry logical] line := by
  intro rest
  subst hline
  rw [logicalLines_cons_of_entry hpassed, joinContinued_of_not_continues hcontinues,
    List.map_cons, List.cons_append, List.nil_append]

theorem isPassedOver_cons {c : Char} {t : Text} (hhash : c ≠ '#') (hbang : c ≠ '!') :
    isPassedOver (c :: t) = false := by
  simp [isPassedOver, hhash, hbang]

/-- Without its leading pads, a written entry still is a key, a separator and a value, and it is no
comment. If the key is empty, the blanks before the sign are pads of the line. -/
theorem exists_dropPads_entry {lead key separator value : Text} (hlead : Blanks lead)
    (hkey : Guarded key) (hseparator : Separates key separator) :
    ∃ separator', Separates key separator' ∧
      dropPads (lead ++ (key ++ (separator ++ value))) = key ++ (separator' ++ value) ∧
      isPassedOver (key ++ (separator' ++ value)) = false := by
  rw [dropPads_append hlead]
  cases key with
  | cons c key =>
    obtain ⟨hpad, _, hhash, hbang⟩ := head_of_guarded hkey
    exact ⟨separator, hseparator, dropPads_cons hpad _, isPassedOver_cons hhash hbang⟩
  | nil =>
    cases hseparator with
    | blanks hne => exact absurd rfl hne
    | @sign before after c hbefore hc hafter =>
      have hplain : isPad c = false ∧ c ≠ '#' ∧ c ≠ '!' := by rcases hc with rfl | rfl <;> decide
      obtain ⟨hpad, hhash, hbang⟩ := hplain
      have hsign : Separates [] ([] ++ c :: after) := .sign .nil hc hafter
      refine ⟨c :: after, hsign, ?_, isPassedOver_cons hhash hbang⟩
      rw [List.nil_append, List.append_assoc, dropPads_append hbefore]
      exact dropPads_cons hpad _

/-- A written entry stands on one line. -/
theorem not_mem_lineBreak_of_entry {lead key writtenKey separator value writtenValue : Text}
    (hlead : Blanks lead) (hkey : Spells key writtenKey)
    (hseparator : Separates writtenKey separator) (hvalue : Spells value writtenValue) :
    '\n' ∉ lead ++ (writtenKey ++ (separator ++ writtenValue)) ∧
      '\r' ∉ lead ++ (writtenKey ++ (separator ++ writtenValue)) := by
  have hn : '\n' ∉ separator := fun hm => (hseparator.of_mem hm).2.2.1 rfl
  have hr : '\r' ∉ separator := fun hm => (hseparator.of_mem hm).2.2.2 rfl
  have hkey := not_mem_lineBreak_of_guarded (guarded_of_spells hkey)
  have hvalue := not_mem_lineBreak_of_guarded (guarded_of_spells hvalue)
  simp [hlead.not_mem_lineBreak, hn, hr, hkey, hvalue]

/-- A written entry does not go on with the next line. -/
theorem continues_of_separates {key separator value : Text} (hkey : Guarded key)
    (hseparator : Separates key separator) (hvalue : Guarded value) :
    continues (key ++ (separator ++ value)) = false := by
  have hplain : '\\' ∉ separator := fun hm => (hseparator.of_mem hm).2.1 rfl
  exact continues_append (continues_of_guarded hkey)
    (continues_append (continues_of_not_mem hplain) (continues_of_guarded hvalue))

/-- **A written line adds its own entries and leaves the other lines alone.** -/
theorem yields_of_spellsLine {entries : List (Text × Text)} {line : Text}
    (h : SpellsLine entries line) : Yields entries line := by
  cases h with
  | blank h =>
    have hdrop : dropPads (line ++ []) = [] := dropPads_append h []
    rw [List.append_nil] at hdrop
    exact yields_of_isPassedOver (by rw [hdrop]; rfl)
  | @comment lead body c hlead hc _ =>
    have hpad : isPad c = false := by rcases hc with rfl | rfl <;> decide
    have hdrop : dropPads (lead ++ c :: body) = c :: body := by
      rw [dropPads_append hlead, dropPads_cons hpad]
    refine yields_of_isPassedOver ?_
    rw [hdrop]
    rcases hc with rfl | rfl <;> rfl
  | entry hlead hkey hseparator hvalue =>
    have hwritten := guarded_of_spells hkey
    obtain ⟨separator', hseparator', hdrop, hpassed⟩ :=
      exists_dropPads_entry hlead hwritten hseparator
    have hcontinues := continues_of_separates hwritten hseparator' (guarded_of_spells hvalue)
    rw [← readEntry_of_separates hkey hseparator' hvalue]
    exact yields_readEntry hdrop hpassed hcontinues

/-! ## Section 5: Lines of a document -/

/-- The line that ends at a line feed: a carriage return before the line feed belongs to the end. -/
def dropReturn (line : Text) : Text :=
  if line.getLast? = some '\r' then line.dropLast else line

theorem dropReturn_append_return (line : Text) : dropReturn (line ++ ['\r']) = line := by
  simp [dropReturn]

theorem dropReturn_of_not_mem {line : Text} (h : '\r' ∉ line) : dropReturn line = line :=
  if_neg fun hlast => h (List.mem_of_getLast? hlast)

theorem dropReturn_cons_cons (c d : Char) (line : Text) :
    dropReturn (c :: d :: line) = c :: dropReturn (d :: line) := by
  unfold dropReturn
  rw [List.getLast?_cons_cons]
  split <;> rfl

/-- A character goes to the first line if it is no line feed and no line feed follows it. -/
theorem lines_cons_cons {c d : Char} (hc : c ≠ '\n') (hd : d ≠ '\n') (t : Text) :
    lines (c :: d :: t) = consFirst c (lines (d :: t)) := by
  rw [lines.eq_def]
  split <;> simp_all

/-- **A text without line feeds is cut off at the line feed that follows it.** -/
theorem lines_append_lineFeed {line : Text} (h : '\n' ∉ line) (rest : Text) :
    lines (line ++ '\n' :: rest) = dropReturn line :: lines rest := by
  induction line with
  | nil => simp [lines, dropReturn]
  | cons c line ih =>
    rw [List.mem_cons, not_or] at h
    obtain ⟨hc, hline⟩ := h
    cases line with
    | nil =>
      by_cases hreturn : c = '\r'
      · subst hreturn
        simp [lines, dropReturn]
      · have hsingle : dropReturn [c] = [c] :=
          dropReturn_of_not_mem (by simpa using Ne.symm hreturn)
        rw [hsingle, List.singleton_append, lines_cons _ (Ne.symm hc) hreturn, lines]
        rfl
    | cons d line =>
      have hd : d ≠ '\n' := fun he => hline (he ▸ List.mem_cons_self)
      rw [List.cons_append, List.cons_append, lines_cons_cons (Ne.symm hc) hd,
        ← List.cons_append, ih hline, dropReturn_cons_cons]
      rfl

/-- A carriage return before the line feed is cut off with it. -/
theorem lines_append_returnLineFeed {line : Text} (h : '\n' ∉ line) (rest : Text) :
    lines (line ++ '\r' :: '\n' :: rest) = line :: lines rest := by
  have hreturned : '\n' ∉ line ++ ['\r'] := by simp [h]
  have hlines := lines_append_lineFeed hreturned rest
  rwa [dropReturn_append_return, List.append_assoc] at hlines

/-- A text without line feeds is one line, or none if it is empty. -/
theorem lines_of_not_mem {line : Text} (h : '\n' ∉ line) :
    lines line = if line = [] then [] else [line] := by
  induction line with
  | nil => rfl
  | cons c line ih =>
    rw [List.mem_cons, not_or] at h
    obtain ⟨hc, hline⟩ := h
    cases line with
    | nil =>
      rw [lines.eq_def]
      split <;> simp_all [lines, consFirst]
    | cons d line =>
      have hd : d ≠ '\n' := fun he => hline (he ▸ List.mem_cons_self)
      rw [lines_cons_cons (Ne.symm hc) hd, ih hline]
      rfl

theorem not_mem_lineFeed_of_spellsLine {entries : List (Text × Text)} {line : Text}
    (h : SpellsLine entries line) : '\n' ∉ line := by
  cases h with
  | blank h => exact h.not_mem_lineBreak.1
  | comment hlead hc hbody =>
    rcases hc with rfl | rfl <;> simp [hlead.not_mem_lineBreak.1, hbody]
  | entry hlead hkey hseparator hvalue =>
    exact (not_mem_lineBreak_of_entry hlead hkey hseparator hvalue).1

/-- The end of a line takes nothing from it: a carriage return before the line feed can only be the
end of a comment. -/
theorem spellsLine_dropReturn {entries : List (Text × Text)} {line : Text}
    (h : SpellsLine entries line) : SpellsLine entries (dropReturn line) := by
  cases h with
  | blank h =>
    rw [dropReturn_of_not_mem h.not_mem_lineBreak.2]
    exact .blank h
  | @comment lead body c hlead hc hbody =>
    rcases List.eq_nil_or_concat body with rfl | ⟨body, d, rfl⟩
    · have hreturn : '\r' ∉ lead ++ [c] := by
        rcases hc with rfl | rfl <;> simp [hlead.not_mem_lineBreak.2]
      rw [dropReturn_of_not_mem hreturn]
      exact .comment hlead hc hbody
    · rw [List.concat_eq_append] at hbody ⊢
      by_cases hd : d = '\r'
      · subst hd
        have hline : lead ++ c :: (body ++ ['\r']) = (lead ++ c :: body) ++ ['\r'] := by simp
        rw [hline, dropReturn_append_return]
        exact .comment hlead hc fun hn => hbody (List.mem_append_left _ hn)
      · have hlast : (lead ++ c :: (body ++ [d])).getLast? = some d := by
          simp [List.getLast?_append, List.getLast?_cons]
        rw [dropReturn, if_neg (by simpa [hlast] using hd)]
        exact .comment hlead hc hbody
  | entry hlead hkey hseparator hvalue =>
    rw [dropReturn_of_not_mem (not_mem_lineBreak_of_entry hlead hkey hseparator hvalue).2]
    exact .entry hlead hkey hseparator hvalue

/-- **A written line is the first one of its document.** -/
theorem exists_lines_of_endsLine {entries : List (Text × Text)} {line lineEnd : Text}
    (h : SpellsLine entries line) (hend : EndsLine lineEnd) (rest : Text) :
    ∃ first, SpellsLine entries first ∧
      lines (line ++ (lineEnd ++ rest)) = first :: lines rest := by
  have hn := not_mem_lineFeed_of_spellsLine h
  cases hend with
  | lineFeed => exact ⟨dropReturn line, spellsLine_dropReturn h, lines_append_lineFeed hn rest⟩
  | returnLineFeed => exact ⟨line, h, lines_append_returnLineFeed hn rest⟩

/-! ## Section 6: Reading a document back -/

/-- A line is read in the same way when it is the last one and has no end. -/
theorem parse_of_spellsLine {entries : List (Text × Text)} {line : Text}
    (h : SpellsLine entries line) : parse line = entries := by
  have hyields := yields_of_spellsLine h []
  rw [parse, lines_of_not_mem (not_mem_lineFeed_of_spellsLine h)]
  split
  · -- an empty last line is no line, and an empty line has no entries
    rename_i hempty
    subst hempty
    simpa [logicalLines, isPassedOver, dropPads] using hyields
  · simpa [logicalLines] using hyields

theorem parse_of_spellsLine_append {entries : List (Text × Text)} {line lineEnd : Text}
    (h : SpellsLine entries line) (hend : EndsLine lineEnd) (rest : Text) :
    parse (line ++ (lineEnd ++ rest)) = entries ++ parse rest := by
  obtain ⟨first, hfirst, hlines⟩ := exists_lines_of_endsLine h hend rest
  rw [parse, hlines]
  exact yields_of_spellsLine hfirst (lines rest)

/-- Every entry can be written on a line: behind an equals sign stands any value. -/
theorem exists_spellsLine (entry : Text × Text) : ∃ line, SpellsLine [entry] line := by
  obtain ⟨key, value⟩ := entry
  obtain ⟨writtenKey, hkey⟩ := exists_spells key
  obtain ⟨writtenValue, hvalue⟩ := exists_spells value
  exact ⟨_, .entry .nil hkey (.sign .nil (.inl rfl) .nil) hvalue⟩

theorem exists_spellsDocument (entries : List (Text × Text)) :
    ∃ document, SpellsDocument entries document := by
  induction entries with
  | nil => exact ⟨_, .last (.blank .nil)⟩
  | cons entry entries ih =>
    obtain ⟨line, hline⟩ := exists_spellsLine entry
    obtain ⟨document, hdocument⟩ := ih
    exact ⟨_, .line hline .lineFeed hdocument⟩

/-- **Every written document is read back**: all its entries, in their order, duplicates among them.
Every list of entries can be written. -/
theorem parse_of_spellsDocument (entries : List (Text × Text)) :
    (∃ document, SpellsDocument entries document) ∧
      ∀ document, SpellsDocument entries document → parse document = entries := by
  refine ⟨exists_spellsDocument entries, ?_⟩
  intro document h
  induction h with
  | last h => exact parse_of_spellsLine h
  | line h hend _ ih => rw [parse_of_spellsLine_append h hend, ih]

/-- A comment that ends in a backslash, an entry without key and value, a key and a value with
escapes of all kinds, a blank line, and the same key once more on a last line without an end. -/
theorem parse_of_spellsDocument_mixed :
    SpellsDocument
      [([], []), ("k=".toList, "😀 \\".toList), ("k=".toList, [])]
      "! note\\\r\n\t= \n \\u006B\\= \t\\uD83d\\uDE00\\ \\\\\r\n\x0c\n\\u006b\\= :".toList ∧
    parse "! note\\\r\n\t= \n \\u006B\\= \t\\uD83d\\uDE00\\ \\\\\r\n\x0c\n\\u006b\\= :".toList =
      [([], []), ("k=".toList, "😀 \\".toList), ("k=".toList, [])] := by
  have hk : UnitDigits 'k'.toNat "006b".toList :=
    .mk (a := 0) (b := 0) (c := 6) (d := 11) ⟨by decide, .inl rfl⟩ ⟨by decide, .inl rfl⟩
      ⟨by decide, .inl rfl⟩ ⟨by decide, .inl rfl⟩
  have hk' : UnitDigits 'k'.toNat "006B".toList :=
    .mk (a := 0) (b := 0) (c := 6) (d := 11) ⟨by decide, .inl rfl⟩ ⟨by decide, .inl rfl⟩
      ⟨by decide, .inl rfl⟩ ⟨by decide, .inr rfl⟩
  have hhigh : UnitDigits 0xD83D "D83d".toList :=
    .mk (a := 13) (b := 8) (c := 3) (d := 13) ⟨by decide, .inr rfl⟩ ⟨by decide, .inl rfl⟩
      ⟨by decide, .inl rfl⟩ ⟨by decide, .inl rfl⟩
  have hlow : UnitDigits 0xDE00 "DE00".toList :=
    .mk (a := 13) (b := 14) (c := 0) (d := 0) ⟨by decide, .inr rfl⟩ ⟨by decide, .inr rfl⟩
      ⟨by decide, .inl rfl⟩ ⟨by decide, .inl rfl⟩
  have hface : SpellsChar '😀' "\\uD83d\\uDE00".toList :=
    .pair (by decide) (by decide) (by decide) hhigh hlow
  have hsign {letter : Char} (c : Char) (h : (c, letter) ∈ escapes) : Spells [c] ['\\', letter] :=
    .cons (.escape h) .nil
  have hvalue : Spells "😀 \\".toList "\\uD83d\\uDE00\\ \\\\".toList :=
    .cons hface (.cons (.escape (by decide)) (hsign '\\' (by decide)))
  have hspace : Blanks [' '] := by decide
  have htab : Blanks ['\t'] := by decide
  have hnote : SpellsLine [] ([] ++ '!' :: " note\\".toList) := .comment .nil (.inr rfl) (by decide)
  have hfeed : SpellsLine [] ['\x0c'] := .blank (by decide)
  have hblanks : Separates "\\u006B\\=".toList " \t".toList :=
    .blanks (by decide) (by decide) (by decide)
  have hcolon : Separates "\\u006b\\=".toList ([' '] ++ ':' :: []) := .sign hspace (.inr rfl) .nil
  have h : SpellsDocument [([], []), ("k=".toList, "😀 \\".toList), ("k=".toList, [])]
      "! note\\\r\n\t= \n \\u006B\\= \t\\uD83d\\uDE00\\ \\\\\r\n\x0c\n\\u006b\\= :".toList :=
    .line hnote .returnLineFeed <|
    .line (.entry htab .nil (.sign .nil (.inl rfl) hspace) .nil) .lineFeed <|
    .line (.entry hspace (.cons (.unit hk') (hsign '=' (by decide))) hblanks hvalue)
      .returnLineFeed <|
    .line hfeed .lineFeed <|
    .last (.entry .nil (.cons (.unit hk) (hsign '=' (by decide))) hcolon .nil)
  exact ⟨h, (parse_of_spellsDocument _).2 _ h⟩

end MessageCatalog.Properties
