import MessageCatalog.Proofs.PropertyDocuments
import Mathlib.Algebra.Group.Nat.Even
import Mathlib.Data.List.DropRight

/-!
# Lines broken with a backslash

A long line of a property file may be broken: a backslash, the end of the line, and any blanks
before the rest. A broken line is read as if it had not been broken, and so is all that follows it.

Whether a line goes on is decided on the text that was put together so far. The lemmas say it of the
lines themselves: behind the first half, whose backslash is gone, only the backslashes of the new
line count. So the lines of a document can be followed with one bit of memory, `leavesOpen`, and
from a line that is no continuation on they are read as if no line stood before them. The end of the
document is the special case: a second half without characters is no line there.

## Main statements

* `continues_eq_false_iff` : the lines that end are those with an even number of backslashes
* `logicalLines_append` : what stands before a line that is no continuation is read on its own
* `logicalLines_append_of_leavesOpen` : a continuation belongs to the entry before it
* `logicalLines_break` : the two halves of a line are put together again
* `IsLine.exists_lines` : a natural line is read whatever line stands in its place
* `parse_of_break` : a line with an entry can be broken anywhere but inside an escape and before
  a blank
-/

namespace MessageCatalog.Properties

open Text

/-! ## Section 1: Natural lines of a document -/

/-- The number of backslashes that a text ends in. -/
def backslashes (t : Text) : Nat := (t.rtakeWhile (· == '\\')).length

/-- A text that does not begin with a blank. -/
def BeginsPlain (t : Text) : Prop := ∀ c ∈ t.head?, c ∉ [' ', '\t', '\x0c']

instance : DecidablePred BeginsPlain
  | [] => .isTrue fun _ hc => by simp at hc
  | c :: _ => decidable_of_iff (c ∉ [' ', '\t', '\x0c']) (by simp [BeginsPlain])

/-- Whether a line goes on with the next one. A blank line or a comment does so only if it is a
continuation itself. -/
def goesOn (continued : Bool) (line : Text) : Bool :=
  (continued || !isPassedOver (dropPads line)) && continues line

/-- Whether the line after these ones is a continuation. -/
def leavesOpen (lines : List Text) : Bool := lines.foldl goesOn false

/-- A text that is one line of a document if this text stands after it. -/
inductive IsLine (line : Text) : (after : Text) → Prop
  /-- The last line, without an end. -/
  | last (hline : '\n' ∉ line) : IsLine line []
  /-- A carriage return before a line feed belongs to the end, not to the line. -/
  | ended {lineEnd rest : Text} (hline : '\n' ∉ line) (hend : EndsLine lineEnd)
      (hreturn : lineEnd = ['\n'] → line.getLast? ≠ some '\r') : IsLine line (lineEnd ++ rest)

/-- A line of a document that an entry begins on, between the text before it and the text after
it. -/
structure BeginsEntry (before line after : Text) : Prop where
  /-- The text before it is nothing or ends a line. -/
  starts : before = [] ∨ before.getLast? = some '\n'
  isLine : IsLine line after
  /-- It is no continuation of the line before it. -/
  fresh : leavesOpen (lines before) = false
  /-- It is neither blank nor a comment. -/
  holdsEntry : isPassedOver (dropPads line) = false

/-! ## Section 2: Backslashes at the end of a line -/

/-- **The lines that do not go on are those that end in an even number of backslashes.** -/
theorem continues_eq_false_iff {t : Text} : continues t = false ↔ Even (backslashes t) := by
  rw [Nat.even_iff, backslashes, List.rtakeWhile, List.length_reverse, continues,
    beq_eq_false_iff_ne, ne_eq, Nat.mod_two_not_eq_one]

theorem continues_concat_backslash {t : Text} (h : continues t = false) :
    continues (t ++ ['\\']) = true := by
  rw [continues_append_eq h]
  rfl

theorem continues_dropLast {t : Text} (h : continues t = true) : continues t.dropLast = false := by
  rcases List.eq_nil_or_concat t with rfl | ⟨t, c, rfl⟩
  · rfl
  rw [List.concat_eq_append] at h ⊢
  rw [List.dropLast_concat]
  by_contra hne
  rw [Bool.not_eq_false] at hne
  -- one more character makes the number of backslashes even, or zero
  unfold continues at h hne
  rw [List.reverse_append, List.reverse_singleton, List.singleton_append, List.takeWhile_cons] at h
  split at h
  · rw [List.length_cons, beq_iff_eq] at h
    rw [beq_iff_eq] at hne
    omega
  · exact absurd h (by decide)

/-- The pads at the start of a line do not count. -/
theorem continues_dropPads (t : Text) : continues (dropPads t) = continues t := by
  have hpads : '\\' ∉ t.takeWhile isPad := by
    intro hm
    exact absurd (List.mem_takeWhile_imp hm) (by decide)
  have ht : t.takeWhile isPad ++ dropPads t = t := List.takeWhile_append_dropWhile
  calc continues (dropPads t)
      = continues (t.takeWhile isPad ++ dropPads t) :=
        (continues_append_eq (continues_of_not_mem hpads) _).symm
    _ = continues t := by rw [ht]

/-- **A joined line goes on if its last part does**: the backslash of the part before is gone. -/
theorem continues_join {line : Text} (h : continues line = true) (next : Text) :
    continues (line.dropLast ++ dropPads next) = continues next := by
  rw [continues_append_eq (continues_dropLast h), continues_dropPads]

/-! ## Section 3: Lines that are continuations, and lines that are not -/

/-- Either an entry takes all the lines and goes on, or it ends among them, and then the lines that
it leaves are as open as before. -/
theorem joinContinued_append (line : Text) (rest : List Text) :
    (rest.foldl goesOn (continues line) = true ∧ ∃ logical, continues logical = true ∧
      ∀ more, joinContinued line (rest ++ more) = joinContinued logical more) ∨
    (leavesOpen (joinContinued line rest).2 = rest.foldl goesOn (continues line) ∧
      ∀ more, joinContinued line (rest ++ more) =
        ((joinContinued line rest).1, (joinContinued line rest).2 ++ more)) := by
  -- the text put together grows with each line, but only the last one decides whether it goes on
  induction rest generalizing line with
  | nil =>
    cases hline : continues line with
    | true => exact .inl ⟨rfl, line, hline, fun more => rfl⟩
    | false => exact .inr (by simp [joinContinued_of_not_continues hline, leavesOpen])
  | cons next rest ih =>
    cases hline : continues line with
    | false =>
      refine .inr ⟨?_, fun more => ?_⟩
      · rw [joinContinued_of_not_continues hline, leavesOpen]
      · rw [List.cons_append, joinContinued_of_not_continues hline,
          joinContinued_of_not_continues hline, List.cons_append]
    | true =>
      have hnext : goesOn true next = continues (line.dropLast ++ dropPads next) := by
        rw [continues_join hline, goesOn, Bool.true_or, Bool.true_and]
      simp only [List.foldl_cons, List.cons_append, joinContinued, hline, if_true, hnext]
      exact ih (line.dropLast ++ dropPads next)

theorem leavesOpen_cons_of_entry {raw : Text} (h : isPassedOver (dropPads raw) = false)
    (rest : List Text) :
    leavesOpen (raw :: rest) = rest.foldl goesOn (continues (dropPads raw)) := by
  rw [leavesOpen, List.foldl_cons, goesOn, h, continues_dropPads, Bool.not_false, Bool.or_true,
    Bool.true_and]

theorem leavesOpen_cons_of_isPassedOver {raw : Text} (h : isPassedOver (dropPads raw) = true)
    (rest : List Text) : leavesOpen (raw :: rest) = leavesOpen rest := by
  rw [leavesOpen, List.foldl_cons, goesOn, h, Bool.not_true, Bool.or_false, Bool.false_and,
    leavesOpen]

/-- **What stands before a line that is no continuation is read on its own.** -/
theorem logicalLines_append {before : List Text} (h : leavesOpen before = false)
    (more : List Text) :
    logicalLines (before ++ more) = logicalLines before ++ logicalLines more := by
  induction before using logicalLines.induct with
  | case1 => simp [logicalLines]
  | case2 raw rest hpassed ih =>
    rw [leavesOpen_cons_of_isPassedOver hpassed] at h
    rw [List.cons_append, logicalLines_cons_of_isPassedOver hpassed,
      logicalLines_cons_of_isPassedOver hpassed, ih h]
  | case3 raw rest hpassed _ ih =>
    rw [Bool.not_eq_true] at hpassed
    rw [leavesOpen_cons_of_entry hpassed] at h
    rcases joinContinued_append (dropPads raw) rest with ⟨hopen, _⟩ | ⟨hleft, hjoin⟩
    · exact absurd (hopen.symm.trans h) (by decide)
    · rw [List.cons_append, logicalLines_cons_of_entry hpassed,
        logicalLines_cons_of_entry hpassed, hjoin, ih (hleft.trans h), List.cons_append]

/-- **A continuation belongs to the entry before it**: the lines before it are some complete ones
and one that goes on. -/
theorem logicalLines_append_of_leavesOpen {before : List Text} (h : leavesOpen before = true) :
    ∃ complete logical, continues logical = true ∧ ∀ more,
      logicalLines (before ++ more) = complete ++ (joinContinued logical more).1 ::
        logicalLines (joinContinued logical more).2 := by
  induction before using logicalLines.induct with
  | case1 => exact absurd h (by decide)
  | case2 raw rest hpassed ih =>
    rw [leavesOpen_cons_of_isPassedOver hpassed] at h
    obtain ⟨complete, logical, hlogical, hmore⟩ := ih h
    refine ⟨complete, logical, hlogical, fun more => ?_⟩
    rw [List.cons_append, logicalLines_cons_of_isPassedOver hpassed, hmore]
  | case3 raw rest hpassed _ ih =>
    rw [Bool.not_eq_true] at hpassed
    rw [leavesOpen_cons_of_entry hpassed] at h
    rcases joinContinued_append (dropPads raw) rest with
      ⟨_, logical, hlogical, hjoin⟩ | ⟨hleft, hjoin⟩
    · refine ⟨[], logical, hlogical, fun more => ?_⟩
      rw [List.cons_append, logicalLines_cons_of_entry hpassed, hjoin, List.nil_append]
    · obtain ⟨complete, logical, hlogical, hmore⟩ := ih (hleft.trans h)
      refine ⟨(joinContinued (dropPads raw) rest).1 :: complete, logical, hlogical, ?_⟩
      intro more
      rw [List.cons_append, logicalLines_cons_of_entry hpassed, hjoin, hmore, List.cons_append]

/-! ## Section 4: Breaking a line into two -/

theorem BeginsPlain.dropPads_eq {t : Text} (h : BeginsPlain t) : dropPads t = t := by
  cases t with
  | nil => rfl
  | cons c t =>
    have hc : c ∉ [' ', '\t', '\x0c'] := h c rfl
    exact dropPads_cons (by simpa [isPad, and_assoc] using hc) t

theorem BeginsPlain.of_append {x y : Text} (h : BeginsPlain (x ++ y)) (rest : Text) :
    BeginsPlain (x ++ '\\' :: rest) := by
  cases x with
  | nil =>
    intro c hc
    obtain rfl : '\\' = c := Option.some.inj hc
    decide
  | cons d x => exact h

theorem isPassedOver_break {x y : Text} (h : isPassedOver (x ++ y) = false) (rest : Text) :
    isPassedOver (x ++ '\\' :: rest) = false := by
  cases x with
  | nil => rfl
  | cons c x => exact h

/-- A broken line is put together again. An empty second half at the end of a document is no
line. -/
theorem joinContinued_break {x y blanks : Text} {second following : List Text}
    (hx : Even (backslashes x)) (hy : BeginsPlain y) (hblanks : Blanks blanks)
    (hsecond : second = (blanks ++ y) :: following ∨
      blanks ++ y = [] ∧ following = [] ∧ second = []) :
    joinContinued (x ++ ['\\']) second = joinContinued (x ++ y) following := by
  have hx : continues x = false := continues_eq_false_iff.mpr hx
  have hgoesOn := continues_concat_backslash hx
  rcases hsecond with rfl | ⟨hempty, rfl, rfl⟩
  · rw [joinContinued, if_pos hgoesOn, List.dropLast_concat, dropPads_append hblanks,
      hy.dropPads_eq]
  · obtain ⟨_, rfl⟩ := List.append_eq_nil_iff.mp hempty
    rw [List.append_nil, joinContinued_of_not_continues hx, joinContinued, if_pos hgoesOn,
      List.dropLast_concat]

/-- **A broken line and the line that it was before are read alike**, together with all the lines
after it. -/
theorem logicalLines_break {indent indent' x y blanks : Text} {second following : List Text}
    (hindent : Blanks indent) (hindent' : Blanks indent') (hxy : BeginsPlain (x ++ y))
    (hentry : isPassedOver (x ++ y) = false) (hx : Even (backslashes x)) (hy : BeginsPlain y)
    (hblanks : Blanks blanks)
    (hsecond : second = (blanks ++ y) :: following ∨
      blanks ++ y = [] ∧ following = [] ∧ second = []) :
    logicalLines ((indent' ++ (x ++ ['\\'])) :: second) =
      logicalLines ((indent ++ (x ++ y)) :: following) := by
  have hline : dropPads (indent ++ (x ++ y)) = x ++ y := by
    rw [dropPads_append hindent, hxy.dropPads_eq]
  have hfirst : dropPads (indent' ++ (x ++ ['\\'])) = x ++ ['\\'] := by
    rw [dropPads_append hindent', (hxy.of_append []).dropPads_eq]
  have hbroken : isPassedOver (dropPads (indent' ++ (x ++ ['\\']))) = false := by
    rw [hfirst]
    exact isPassedOver_break hentry []
  rw [← hline] at hentry
  rw [logicalLines_cons_of_entry hentry, logicalLines_cons_of_entry hbroken, hline, hfirst,
    joinContinued_break hx hy hblanks hsecond]

/-! ## Section 5: The lines of a document -/

theorem lines_ne_nil {t : Text} (h : t ≠ []) : lines t ≠ [] := by
  have consFirst_ne_nil (c : Char) (parts : List Text) : consFirst c parts ≠ [] := by
    cases parts <;> simp [consFirst]
  unfold lines
  split
  · exact absurd rfl h
  · simp
  · simp
  · exact consFirst_ne_nil _ _

theorem consFirst_append (c : Char) {parts : List Text} (h : parts ≠ []) (more : List Text) :
    consFirst c (parts ++ more) = consFirst c parts ++ more := by
  obtain ⟨part, rest, rfl⟩ := List.exists_cons_of_ne_nil h
  rfl

/-- What is left of a text that ends a line. -/
theorem ends_of_cons {c : Char} {t : Text} (h : (c :: t).getLast? = some '\n') :
    t = [] ∨ t.getLast? = some '\n' := by
  cases t with
  | nil => exact .inl rfl
  | cons d t => exact .inr (by rwa [List.getLast?_cons_cons] at h)

/-- **The lines of a text that ends a line are those of its document, up to there.** -/
theorem lines_append_of_ends {before : Text} (h : before = [] ∨ before.getLast? = some '\n')
    (t : Text) : lines (before ++ t) = lines before ++ lines t := by
  rcases h with rfl | h
  · rfl
  fun_induction lines before with
  | case1 => simp
  | case2 cs ih =>
    rcases ends_of_cons h with rfl | hcs
    · simp [lines]
    · simp only [List.cons_append, lines, ih hcs]
  | case3 cs ih =>
    rcases ends_of_cons (c := '\n') (by rwa [List.getLast?_cons_cons] at h) with rfl | hcs
    · simp [lines]
    · simp only [List.cons_append, lines, ih hcs]
  | case4 c cs hn hr ih =>
    rcases ends_of_cons h with rfl | hcs
    · exact absurd (by simpa using h) hn
    · -- another character of this line follows, so what stands after the text changes nothing
      have hne : cs ≠ [] := by
        rintro rfl
        simp at hcs
      have hfirst : lines (c :: (cs ++ t)) = consFirst c (lines (cs ++ t)) := by
        obtain ⟨d, ds, rfl⟩ := List.exists_cons_of_ne_nil hne
        refine lines.eq_4 c _ hn fun rest hc he => hr ds hc ?_
        rw [List.cons_append, List.cons.injEq] at he
        rw [he.1]
      rw [List.cons_append, hfirst, ih hcs, consFirst_append c (lines_ne_nil hne)]

theorem IsLine.not_mem_lineFeed {line after : Text} (h : IsLine line after) : '\n' ∉ line := by
  cases h with
  | last hline => exact hline
  | ended hline _ _ => exact hline

/-- A natural line is cut off at its end. -/
theorem lines_append_end {line lineEnd : Text} (hline : '\n' ∉ line) (hend : EndsLine lineEnd)
    (hreturn : lineEnd = ['\n'] → line.getLast? ≠ some '\r') (rest : Text) :
    lines (line ++ (lineEnd ++ rest)) = line :: lines rest := by
  cases hend with
  | lineFeed =>
    have hcut := lines_append_lineFeed hline rest
    rwa [dropReturn, if_neg (hreturn rfl)] at hcut
  | returnLineFeed => exact lines_append_returnLineFeed hline rest

/-- **The lines after a natural line do not depend on it**: another line in its place has the same
ones after it. Only an empty line is none at the end of the document. -/
theorem IsLine.exists_lines {line after : Text} (h : IsLine line after) :
    ∃ following, ∀ line', '\n' ∉ line' →
      (line'.getLast? = some '\r' → line.getLast? = some '\r') →
      lines (line' ++ after) = line' :: following ∨
        line' = [] ∧ following = [] ∧ lines (line' ++ after) = [] := by
  cases h with
  | last _ =>
    refine ⟨[], fun line' hline' _ => ?_⟩
    rw [List.append_nil, lines_of_not_mem hline']
    split
    · next hempty => exact .inr ⟨hempty, rfl, rfl⟩
    · exact .inl rfl
  | @ended lineEnd rest _ hend hreturn =>
    refine ⟨lines rest, fun line' hline' hlast => .inl ?_⟩
    exact lines_append_end hline' hend (fun he hr => hreturn he (hlast hr)) rest

/-- A carriage return at the end of a second half is one at the end of the whole line. -/
theorem getLast?_of_blanks_append {blanks y : Text} (hblanks : Blanks blanks)
    (h : (blanks ++ y).getLast? = some '\r') (t : Text) : (t ++ y).getLast? = some '\r' := by
  rw [List.getLast?_append, Option.or_eq_some_iff] at h ⊢
  rcases h with h | ⟨_, hlast⟩
  · exact .inl h
  · exact absurd (List.mem_of_getLast? hlast) hblanks.not_mem_lineBreak.2

/-! ## Section 6: Breaking a line of a document -/

/-- **Line continuation is transparent.** A line with an entry is broken at any place that no
backslash escapes and no blank follows: the document has the same entries as before, whatever stands
in the two halves and on the other lines. -/
theorem parse_of_break {before indent x y after : Text}
    (hline : BeginsEntry before (indent ++ (x ++ y)) after) (hindent : Blanks indent)
    (hxy : BeginsPlain (x ++ y)) (hx : Even (backslashes x)) (hy : BeginsPlain y)
    {indent' lineEnd blanks : Text} (hindent' : Blanks indent') (hend : EndsLine lineEnd)
    (hblanks : Blanks blanks) :
    parse (before ++ (indent' ++ (x ++ '\\' :: (lineEnd ++ (blanks ++ (y ++ after)))))) =
      parse (before ++ ((indent ++ (x ++ y)) ++ after)) := by
  obtain ⟨hstarts, hafter, hfresh, hentry⟩ := hline
  have hlineFeed : '\n' ∉ indent ++ (x ++ y) := hafter.not_mem_lineFeed
  obtain ⟨following, hfollowing⟩ := hafter.exists_lines
  have hwhole : lines ((indent ++ (x ++ y)) ++ after) = (indent ++ (x ++ y)) :: following := by
    rcases hfollowing _ hlineFeed id with hlines | ⟨hempty, _⟩
    · exact hlines
    · -- a line with an entry is not empty
      rw [hempty] at hentry
      exact absurd hentry (by decide)
  simp only [List.mem_append, not_or] at hlineFeed
  obtain ⟨_, hxLineFeed, hyLineFeed⟩ := hlineFeed
  -- the second half takes the place of the whole line before the text after it
  have hsecond : lines ((blanks ++ y) ++ after) = (blanks ++ y) :: following ∨
      blanks ++ y = [] ∧ following = [] ∧ lines ((blanks ++ y) ++ after) = [] := by
    refine hfollowing (blanks ++ y) (by simp [hblanks.not_mem_lineBreak, hyLineFeed]) ?_
    intro hlast
    rw [← List.append_assoc]
    exact getLast?_of_blanks_append hblanks hlast _
  have hbroken : lines (indent' ++ (x ++ '\\' :: (lineEnd ++ (blanks ++ (y ++ after))))) =
      (indent' ++ (x ++ ['\\'])) :: lines ((blanks ++ y) ++ after) := by
    have hfirst : '\n' ∉ indent' ++ (x ++ ['\\']) := by
      simp [hindent'.not_mem_lineBreak, hxLineFeed]
    -- a backslash stands before the new end, so the first half keeps all its characters
    have hlast : (indent' ++ (x ++ ['\\'])).getLast? ≠ some '\r' := by
      simp [← List.append_assoc]
    simpa using lines_append_end hfirst hend (fun _ => hlast) ((blanks ++ y) ++ after)
  have hxy' : isPassedOver (x ++ y) = false := by
    rwa [dropPads_append hindent, hxy.dropPads_eq] at hentry
  rw [parse, parse, lines_append_of_ends hstarts, lines_append_of_ends hstarts,
    logicalLines_append hfresh, logicalLines_append hfresh, hwhole, hbroken,
    logicalLines_break hindent hindent' hxy hxy' hx hy hblanks hsecond]

/-- A line behind a comment that ends in a backslash is broken before its separator. The two
backslashes before the break stand for one of the key, and the line went on already. -/
theorem parse_of_break_at_separator :
    BeginsEntry "# note \\\r\n".toList " key\\\\=va\\".toList "\n  lue\\:\r\nnext=1".toList ∧
    parse "# note \\\r\nkey\\\\\\\r\n\t =va\\\n  lue\\:\r\nnext=1".toList =
      [("key\\".toList, "value:".toList), ("next".toList, "1".toList)] := by
  have hline : BeginsEntry "# note \\\r\n".toList
      (" ".toList ++ ("key\\\\".toList ++ "=va\\".toList)) "\n  lue\\:\r\nnext=1".toList :=
    { starts := .inr (by decide)
      isLine := @IsLine.ended _ ['\n'] "  lue\\:\r\nnext=1".toList (by decide) .lineFeed (by decide)
      fresh := by decide
      holdsEntry := by decide }
  have hblanks : Blanks "\t ".toList := by decide
  have hbroken := parse_of_break hline (by decide) (by decide) (by decide) (by decide) .nil
    .returnLineFeed hblanks
  have hwhole : parse "# note \\\r\n key\\\\=va\\\n  lue\\:\r\nnext=1".toList =
      [("key\\".toList, "value:".toList), ("next".toList, "1".toList)] := by decide +kernel
  exact ⟨hline, hbroken.trans hwhole⟩

end MessageCatalog.Properties
