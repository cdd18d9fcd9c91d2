import MessageCatalog.Number.Style
import MessageCatalog.Proofs.Segmentation
import MessageCatalog.Proofs.SubtagForms

/-!
# Removed occurrences

The leftmost occurrence of a needle is removed from a text. Where it is found is told from what the
parts of the text hold: an occurrence does not reach beyond a character that the needle does not hold.
In particular a needle without digits is looked for before some digits and after them, and between
them only when it is the separator.

## Main statements

* `removeFirst_append_of_isInfix`, `removeFirst_append_of_not_isInfix` : an occurrence in the first
  part, and one that the first part does not hold
* `removeFirst_cons_append_self` : removing what one character stands before
* `Parted.removeFirst_append`, `Parted.exists_removeFirst_separator` : removing from digits with
  separators leaves the digits
* `Parted.trim_append_append` : trimming a text around digits
-/

namespace MessageCatalog

/-! ## Section 1: Removing an occurrence -/

namespace Text

variable {needle t front : Text} {c d : Char}

theorem startsWith_eq_true_iff_isPrefix : startsWith needle t = true ↔ needle <+: t := by
  rw [startsWith_eq_true_iff]
  exact exists_congr fun _ => eq_comm

theorem removeFirst_of_isPrefix (h : needle <+: t) : removeFirst needle t = t.drop needle.length := by
  rw [removeFirst, breakAt?_of_startsWith (startsWith_eq_true_iff_isPrefix.mpr h)]
  rfl

theorem removeFirst_cons_of_not_isPrefix (h : ¬needle <+: c :: t) :
    removeFirst needle (c :: t) = c :: removeFirst needle t := by
  have hstart : startsWith needle (c :: t) = false := by
    rw [← Bool.not_eq_true, startsWith_eq_true_iff_isPrefix]
    exact h
  unfold removeFirst
  rw [breakAt?_cons_of_not_startsWith hstart]
  cases breakAt? needle t <;> rfl

theorem removeFirst_nil (t : Text) : removeFirst [] t = t :=
  removeFirst_of_isPrefix List.nil_prefix

theorem removeFirst_append_self (needle t : Text) : removeFirst needle (needle ++ t) = t := by
  rw [removeFirst_of_isPrefix (List.prefix_append needle t), List.drop_left]

theorem removeFirst_of_not_isInfix (h : ¬needle <:+: t) : removeFirst needle t = t := by
  induction t with
  | nil =>
    have hne : needle ≠ [] := fun hnil => h (hnil ▸ List.infix_rfl)
    rw [removeFirst, breakAt?, if_neg hne]
  | cons c t ih =>
    rw [List.infix_cons_iff, not_or] at h
    rw [removeFirst_cons_of_not_isPrefix h.1, ih h.2]

/-- What is left when an occurrence is removed. -/
theorem exists_removeFirst_eq (h : needle <:+: t) :
    ∃ before after, t = before ++ needle ++ after ∧ removeFirst needle t = before ++ after := by
  induction t with
  | nil =>
    rw [List.infix_nil.mp h]
    exact ⟨[], [], rfl, rfl⟩
  | cons c t ih =>
    by_cases hstart : needle <+: c :: t
    · obtain ⟨after, hafter⟩ := hstart
      exact ⟨[], after, hafter.symm, by rw [← hafter, removeFirst_append_self]; rfl⟩
    · obtain ⟨before, after, rfl, hremoved⟩ := ih ((List.infix_cons_iff.mp h).resolve_left hstart)
      refine ⟨c :: before, after, rfl, ?_⟩
      rw [removeFirst_cons_of_not_isPrefix hstart, hremoved, List.cons_append]

theorem sublist_removeFirst (needle t : Text) : (removeFirst needle t).Sublist t := by
  by_cases h : needle <:+: t
  · obtain ⟨before, after, rfl, hremoved⟩ := exists_removeFirst_eq h
    rw [hremoved]
    exact (List.sublist_append_left before needle).append_right after
  · rw [removeFirst_of_not_isInfix h]

theorem length_removeFirst (h : needle <:+: t) :
    (removeFirst needle t).length + needle.length = t.length := by
  obtain ⟨before, after, rfl, hremoved⟩ := exists_removeFirst_eq h
  simp only [hremoved, List.length_append]
  omega

/-- **An occurrence in the first part is removed there.** -/
theorem removeFirst_append_of_isInfix (h : needle <:+: front) (t : Text) :
    removeFirst needle (front ++ t) = removeFirst needle front ++ t := by
  induction front with
  | nil =>
    rw [List.infix_nil.mp h, removeFirst_nil, removeFirst_nil]
  | cons c front ih =>
    by_cases hstart : needle <+: c :: front
    · rw [removeFirst_of_isPrefix hstart, removeFirst_of_isPrefix (hstart.trans (List.prefix_append _ t)),
        List.drop_append_of_le_length hstart.length_le]
    · have hlater := (List.infix_cons_iff.mp h).resolve_left hstart
      -- an occurrence at the start would end within the first part as well
      have hstart' : ¬needle <+: c :: (front ++ t) := fun hbegins =>
        hstart (List.prefix_of_prefix_length_le hbegins (List.prefix_append (c :: front) t)
          (Nat.le_succ_of_le hlater.length_le))
      rw [List.cons_append, removeFirst_cons_of_not_isPrefix hstart', ih hlater,
        removeFirst_cons_of_not_isPrefix hstart, List.cons_append]

/-- A text does not stand in a proper part of itself. -/
theorem not_isInfix_of_part {part : Text} (h : part <:+: needle) (hne : part ≠ needle) :
    ¬needle <:+: part := fun hoccurs =>
  hne (h.eq_of_length_le hoccurs.length_le)

/-- No occurrence reaches beyond a character that the needle does not hold. -/
theorem isPrefix_of_append_cons (hd : d ∉ needle) (h : needle <+: front ++ d :: t) :
    needle <+: front := by
  obtain hshort | ⟨rest, rfl⟩ := List.prefix_or_prefix_of_prefix h (List.prefix_append front (d :: t))
  · exact hshort
  · rw [List.prefix_append_right_inj] at h
    cases rest with
    | nil => simp
    | cons e rest =>
      obtain rfl := (List.cons_prefix_cons.mp h).1
      exact absurd (List.mem_append_right front List.mem_cons_self) hd

/-- **An occurrence that the first part does not hold is looked for behind it**, given that the
second part begins with a character that the needle does not hold. -/
theorem removeFirst_append_of_not_isInfix (h : ¬needle <:+: front) (hd : d ∉ needle) (t : Text) :
    removeFirst needle (front ++ d :: t) = front ++ removeFirst needle (d :: t) := by
  induction front with
  | nil => rfl
  | cons c front ih =>
    rw [List.infix_cons_iff, not_or] at h
    have hstart : ¬needle <+: c :: (front ++ d :: t) := fun hbegins =>
      h.1 (isPrefix_of_append_cons hd hbegins)
    rw [List.cons_append, removeFirst_cons_of_not_isPrefix hstart, ih h.2, List.cons_append]

theorem eq_of_cons_eq_append_singleton {c d : Char} {t : Text} (h : c :: t = t ++ [d]) : c = d := by
  induction t with
  | nil => exact (List.cons_eq_cons.mp h).1
  | cons e t ih =>
    obtain ⟨rfl, htail⟩ := List.cons_eq_cons.mp h
    exact ih htail

/-- Removing from a text with one character before the needle leaves that character, also when the
occurrence begins with it. -/
theorem removeFirst_cons_append_self (c : Char) (needle t : Text) :
    removeFirst needle (c :: (needle ++ t)) = c :: t := by
  by_cases hstart : needle <+: c :: (needle ++ t)
  · have hshort : needle <+: c :: needle :=
      List.prefix_of_prefix_length_le hstart (List.prefix_append (c :: needle) t) (Nat.le_succ _)
    obtain ⟨last, hlast⟩ := hshort
    have hlength : last.length = 1 := by
      have := congrArg List.length hlast
      simp only [List.length_append, List.length_cons] at this
      omega
    obtain ⟨d, rfl⟩ := List.length_eq_one_iff.mp hlength
    obtain rfl := eq_of_cons_eq_append_singleton hlast.symm
    rw [removeFirst_of_isPrefix hstart, ← List.cons_append, ← hlast, List.append_assoc, List.drop_left]
    rfl
  · rw [removeFirst_cons_of_not_isPrefix hstart, removeFirst_append_self]

theorem isPrefix_trimRight (t : Text) : trimRight t <+: t :=
  List.rdropWhile_prefix isBlank t

theorem isSuffix_trimLeft (t : Text) : trimLeft t <:+ t :=
  List.dropWhile_suffix isBlank

/-- Trimming at the start reaches what stands before a character that is no blank. -/
theorem trimLeft_append_cons (h : isBlank d = false) (front t : Text) :
    trimLeft (front ++ d :: t) = trimLeft front ++ d :: t := by
  unfold trimLeft
  rw [List.dropWhile_append, List.dropWhile_cons_of_neg (by simp [h])]
  split
  · rename_i hempty
    rw [List.isEmpty_iff.mp hempty, List.nil_append]
  · rfl

/-- Trimming at the end reaches what stands after a character that is no blank. -/
theorem trimRight_append_cons (h : isBlank d = false) (front t : Text) :
    trimRight (front ++ d :: t) = front ++ d :: trimRight t := by
  have hback : trimLeft (t.reverse ++ d :: front.reverse) = trimLeft t.reverse ++ d :: front.reverse :=
    trimLeft_append_cons h _ _
  have hreverse : (front ++ d :: t).reverse = t.reverse ++ d :: front.reverse := by simp
  show (trimLeft (front ++ d :: t).reverse).reverse = _
  rw [hreverse, hback, List.reverse_append, List.reverse_cons, List.reverse_reverse,
    List.append_assoc]
  rfl

/-! ## Section 2: Digits with separators -/

/-- Digits with a separator between some of them. -/
inductive Parted (separator : Char) : (digits text : Text) → Prop
  /-- The last digit. -/
  | last {d : Char} (hd : d.isDigit = true) : Parted separator [d] [d]
  /-- A digit right before the next one. -/
  | digit {d : Char} {digits t : Text} (hd : d.isDigit = true) (h : Parted separator digits t) :
      Parted separator (d :: digits) (d :: t)
  /-- A digit with a separator after it. -/
  | parted {d : Char} {digits t : Text} (hd : d.isDigit = true) (h : Parted separator digits t) :
      Parted separator (d :: digits) (d :: separator :: t)

namespace Parted

variable {separator : Char} {digits : Text}

theorem exists_cons (h : Parted separator digits t) :
    ∃ d rest, t = d :: rest ∧ d.isDigit = true := by
  cases h with
  | last hd => exact ⟨_, _, rfl, hd⟩
  | digit hd _ => exact ⟨_, _, rfl, hd⟩
  | parted hd _ => exact ⟨_, _, rfl, hd⟩

theorem exists_concat (h : Parted separator digits t) :
    ∃ rest d, t = rest ++ [d] ∧ d.isDigit = true := by
  induction h with
  | last hd => exact ⟨[], _, rfl, hd⟩
  | digit _ _ ih =>
    obtain ⟨rest, e, rfl, he⟩ := ih
    exact ⟨_ :: rest, e, rfl, he⟩
  | parted _ _ ih =>
    obtain ⟨rest, e, rfl, he⟩ := ih
    exact ⟨_ :: separator :: rest, e, rfl, he⟩

/-- The digits are what is kept when digits are and the separator is not. -/
theorem filter_eq (h : Parted separator digits t) {keep : Char → Bool}
    (hseparator : keep separator = false) (hdigit : ∀ c, c.isDigit = true → keep c = true) :
    t.filter keep = digits := by
  induction h with
  | last hd => exact List.filter_cons_of_pos (hdigit _ hd)
  | digit hd _ ih => rw [List.filter_cons_of_pos (hdigit _ hd), ih]
  | parted hd _ ih =>
    rw [List.filter_cons_of_pos (hdigit _ hd), List.filter_cons_of_neg (by simp [hseparator]), ih]

theorem of_digits (hne : digits ≠ []) (h : ∀ c ∈ digits, c.isDigit = true) :
    Parted separator digits digits := by
  induction digits with
  | nil => exact absurd rfl hne
  | cons c digits ih =>
    rw [List.forall_mem_cons] at h
    by_cases hnil : digits = []
    · subst hnil
      exact .last h.1
    · exact .digit h.1 (ih hnil h.2)

theorem group (size : Nat) (hne : digits ≠ []) (h : ∀ c ∈ digits, c.isDigit = true) :
    Parted separator digits (Number.group size separator digits) := by
  induction digits with
  | nil => exact absurd rfl hne
  | cons c digits ih =>
    rw [List.forall_mem_cons] at h
    unfold Number.group
    by_cases hnil : digits = []
    · subst hnil
      exact .last h.1
    · split
      · exact .parted h.1 (ih hnil h.2)
      · exact .digit h.1 (ih hnil h.2)

/-- A needle without digits that does not stand before the digits is looked for from them on. -/
theorem removeFirst_front (h : Parted separator digits t)
    (hneedle : ∀ c ∈ needle, c.isDigit = false) (hfront : ¬needle <:+: front) (rest : Text) :
    removeFirst needle (front ++ (t ++ rest)) = front ++ removeFirst needle (t ++ rest) := by
  obtain ⟨d, others, rfl, hd⟩ := h.exists_cons
  have habsent : d ∉ needle := fun hmem => by cases hd.symm.trans (hneedle d hmem)
  rw [List.cons_append]
  exact removeFirst_append_of_not_isInfix hfront habsent _

/-- No occurrence of a needle without digits begins with a digit. -/
theorem removeFirst_cons_of_isDigit {d : Char} (hne : needle ≠ [])
    (hneedle : ∀ c ∈ needle, c.isDigit = false) (hd : d.isDigit = true) (t : Text) :
    removeFirst needle (d :: t) = d :: removeFirst needle t := by
  apply removeFirst_cons_of_not_isPrefix
  intro hbegins
  obtain ⟨e, needle, rfl⟩ := List.exists_cons_of_ne_nil hne
  obtain rfl := (List.cons_prefix_cons.mp hbegins).1
  cases hd.symm.trans (hneedle _ List.mem_cons_self)

/-- **Removing from digits with separators leaves the digits.** A needle without digits is looked for
behind them, unless it is a separator that stands among them. -/
theorem removeFirst_append (h : Parted separator digits t) (hne : needle ≠ [])
    (hneedle : ∀ c ∈ needle, c.isDigit = false) (hplain : needle = [separator] → separator ∉ t)
    (rest : Text) : removeFirst needle (t ++ rest) = t ++ removeFirst needle rest := by
  have hstep := fun {d : Char} => removeFirst_cons_of_isDigit (d := d) hne hneedle
  induction h with
  | last hd => exact hstep hd rest
  | digit hd _ ih =>
    rw [List.cons_append, hstep hd,
      ih fun hone hmem => hplain hone (List.mem_cons_of_mem _ hmem)]
    rfl
  | @parted d digits t hd ht ih =>
    have hone : needle ≠ [separator] := fun hone => hplain hone (by simp)
    have hstart : ¬needle <+: separator :: (t ++ rest) := by
      intro hbegins
      obtain ⟨e, others, rfl⟩ := List.exists_cons_of_ne_nil hne
      obtain ⟨rfl, hothers⟩ := List.cons_prefix_cons.mp hbegins
      -- behind the separator stands a digit, and the needle ends before it
      obtain ⟨f, t, rfl, hf⟩ := ht.exists_cons
      have habsent : f ∉ others := fun hmem => by
        cases hf.symm.trans (hneedle f (List.mem_cons_of_mem _ hmem))
      have hnil : others <+: [] := isPrefix_of_append_cons habsent hothers
      exact hone (by rw [List.prefix_nil.mp hnil])
    rw [List.cons_append, hstep hd, List.cons_append, removeFirst_cons_of_not_isPrefix hstart,
      ih fun hone' => absurd hone' hone]
    rfl

/-- The first separator among the digits is removed. -/
theorem exists_removeFirst_separator (h : Parted separator digits t)
    (hseparator : separator.isDigit = false) (hmem : separator ∈ t) (rest : Text) :
    ∃ left, Parted separator digits left ∧ removeFirst [separator] (t ++ rest) = left ++ rest := by
  have hneedle : ∀ c ∈ [separator], c.isDigit = false := by simpa using hseparator
  have hstep : ∀ {d : Char}, d.isDigit = true → ∀ t,
      removeFirst [separator] (d :: t) = d :: removeFirst [separator] t :=
    fun hd => removeFirst_cons_of_isDigit (List.cons_ne_nil _ _) hneedle hd
  have hother : ∀ {d : Char}, d.isDigit = true → separator ≠ d := by
    rintro d hd rfl
    cases hseparator.symm.trans hd
  induction h with
  | last hd => exact absurd (List.mem_singleton.mp hmem) (hother hd)
  | digit hd _ ih =>
    obtain ⟨left, hleft, hremoved⟩ := ih ((List.mem_cons.mp hmem).resolve_left (hother hd))
    refine ⟨_ :: left, .digit hd hleft, ?_⟩
    rw [List.cons_append, hstep hd, hremoved]
    rfl
  | @parted d digits t hd ht _ =>
    refine ⟨d :: t, .digit hd ht, ?_⟩
    rw [List.cons_append, hstep hd, List.cons_append]
    exact congrArg (d :: ·) (removeFirst_append_self [separator] (t ++ rest))

/-- **Trimming a text around digits** reaches what stands before them and what stands after them. -/
theorem trim_append_append (h : Parted separator digits t) (before after : Text) :
    trim (before ++ t ++ after) = trimLeft before ++ t ++ trimRight after := by
  have hleft : trimLeft (before ++ t ++ after) = trimLeft before ++ t ++ after := by
    obtain ⟨d, rest, rfl, hd⟩ := h.exists_cons
    rw [List.append_assoc, List.cons_append, trimLeft_append_cons (isBlank_of_isDigit hd),
      List.append_assoc, List.cons_append]
  obtain ⟨rest, d, rfl, hd⟩ := h.exists_concat
  have hsplit : ∀ after, trimLeft before ++ (rest ++ [d]) ++ after =
      (trimLeft before ++ rest) ++ d :: after := by simp
  rw [trim, hleft, hsplit, trimRight_append_cons (isBlank_of_isDigit hd), hsplit]

end Parted

end Text

end MessageCatalog
