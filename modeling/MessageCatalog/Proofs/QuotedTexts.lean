import MessageCatalog.Text.Quoted
import Mathlib.Data.List.Basic
import Mathlib.Tactic.SplitIfs

/-!
# Quoted texts read back

A quoted text is one literal: no line ends in it, the only quote in it that is not escaped closes
it, and reading its escapes gives the text again. Code around such literals can therefore be cut at
its quotes, and the literals that are found there are the texts that were written into it.

## Main statements

* `unquote?_quote` : a quoted text reads back as that text
* `isLineBreak_of_mem_quote` : no line ends inside quotes
* `literals?_append` : the literals of a line of code are the quoted texts that were written into it
-/

namespace MessageCatalog.Text

/-! ## Section 1: Hexadecimal digits -/

theorem hexNumber?_concat (digits : Text) (c : Char) :
    hexNumber? (digits ++ [c]) =
      (hexNumber? digits).bind fun n => (hexValue? c).map fun d => 16 * n + d := by
  simp [hexNumber?, List.foldlM_append]

/-- The digits of a number in base sixteen denote that number. -/
theorem hexNumber?_hexadecimal (n : Nat) : hexNumber? (hexadecimal n) = some n := by
  have hvalue : ∀ d < 16, hexValue? (Nat.digitChar d) = some d := by decide
  induction n using Nat.strongRecOn with
  | _ n ih =>
    rw [hexadecimal, Nat.toDigits_eq_if (by decide)]
    split_ifs with h
    · have := hexNumber?_concat [] (Nat.digitChar n)
      rw [List.nil_append, hvalue n h] at this
      simpa [hexNumber?] using this
    · have hprefix : hexNumber? (Nat.toDigits 16 (n / 16)) = some (n / 16) := ih _ (by omega)
      rw [hexNumber?_concat, hprefix, hvalue _ (by omega), Option.bind_some, Option.map_some,
        Nat.div_add_mod]

theorem mem_hexadecimal {n : Nat} {c : Char} (h : c ∈ hexadecimal n) :
    ∃ d < 16, c = Nat.digitChar d := by
  induction n using Nat.strongRecOn with
  | _ n ih =>
    rw [hexadecimal, Nat.toDigits_eq_if (by decide)] at h
    split_ifs at h with hn
    · exact ⟨n, hn, List.mem_singleton.mp h⟩
    · rcases List.mem_append.mp h with h | h
      · exact ih (n / 16) (by omega) h
      · exact ⟨n % 16, by omega, List.mem_singleton.mp h⟩

/-- A character is found again by the digits of its code point. -/
theorem codePoint?_hexadecimal (c : Char) : codePoint? (hexadecimal c.toNat) = some c := by
  have hvalid : c.toNat.isValidChar := c.valid
  have hlength : (hexadecimal c.toNat).length ≤ 6 := by
    rw [hexadecimal, Nat.length_toDigits_le_iff (by decide) (by decide)]
    simp only [Nat.isValidChar] at hvalid
    omega
  have hdigits : ¬(hexadecimal c.toNat = [] ∨ 6 < (hexadecimal c.toNat).length) := by
    rintro (h | h)
    · exact Nat.toDigits_ne_nil h
    · omega
  rw [codePoint?, if_neg hdigits, hexNumber?_hexadecimal, Option.bind_some, if_pos hvalid,
    Char.ofNat_toNat]

/-! ## Section 2: Escapes -/

/-- The characters that cannot stand for themselves inside quotes. -/
def escaped : Text := ['\\', '"', '\n', '\r']

/-- Hexadecimal digits stand for themselves, and none of them is a brace. -/
theorem not_mem_hexadecimal {n : Nat} {c : Char} (hc : c ∈ '}' :: escaped) : c ∉ hexadecimal n := by
  intro h
  obtain ⟨d, hd, rfl⟩ := mem_hexadecimal h
  have hdigit : ∀ d < 16, Nat.digitChar d ∉ '}' :: escaped := by decide
  exact hdigit d hd hc

/-- How a character stands inside quotes: by an escape of two characters, as itself, or by its code
point. -/
theorem escapeChar_cases (c : Char) :
    (∃ e, escapeChar c = ['\\', e] ∧ simpleEscape? e = some c) ∨
      (c ∉ escaped ∧ escapeChar c = [c]) ∨
      escapeChar c = '\\' :: 'u' :: '{' :: (hexadecimal c.toNat ++ ['}']) := by
  unfold escapeChar
  split_ifs with hquote hbackslash hfeed hreturn htab hnull hprintable
  · exact .inl ⟨'"', rfl, congrArg some hquote.symm⟩
  · exact .inl ⟨'\\', rfl, congrArg some hbackslash.symm⟩
  · exact .inl ⟨'n', rfl, congrArg some hfeed.symm⟩
  · exact .inl ⟨'r', rfl, congrArg some hreturn.symm⟩
  · exact .inl ⟨'t', rfl, congrArg some htab.symm⟩
  · exact .inl ⟨'0', rfl, congrArg some hnull.symm⟩
  · exact .inr (.inl ⟨by simp [escaped, *], rfl⟩)
  · exact .inr (.inr rfl)

/-- A character that ends a line, or begins its end. -/
def isLineBreak (c : Char) : Bool := c == '\n' || c == '\r'

theorem isLineBreak_of_simpleEscape? {e c : Char} (h : simpleEscape? e = some c) :
    isLineBreak e = false := by
  cases hbreak : isLineBreak e with
  | false => rfl
  | true =>
    obtain rfl | rfl : e = '\n' ∨ e = '\r' := by simpa [isLineBreak] using hbreak
    · simp [simpleEscape?] at h
    · simp [simpleEscape?] at h

theorem unescape?_pair {e c : Char} (h : simpleEscape? e = some c) (rest : Text) :
    unescape? ('\\' :: e :: rest) = (unescape? rest).map (c :: ·) := by
  rw [unescape?]
  · rw [h]
    rfl
  · rintro _ rfl -
    simp [simpleEscape?] at h

theorem unescape?_plain {c : Char} (h : c ∉ escaped) (rest : Text) :
    unescape? (c :: rest) = (unescape? rest).map (c :: ·) := by
  simp only [escaped, List.mem_cons, List.not_mem_nil, or_false, not_or] at h
  rw [unescape?]
  · simp [h]
  · rintro _ hc -
    exact h.1 hc
  · rintro _ _ hc -
    exact h.1 hc

theorem unescape?_codePoint (c : Char) (rest : Text) :
    unescape? ('\\' :: 'u' :: '{' :: (hexadecimal c.toNat ++ '}' :: rest)) =
      (unescape? rest).map (c :: ·) := by
  have hdigits : ∀ d ∈ hexadecimal c.toNat, (d != '}') = true := fun d hd => by
    rw [bne_iff_ne]
    rintro rfl
    exact not_mem_hexadecimal (by decide) hd
  have htake : (hexadecimal c.toNat ++ '}' :: rest).takeWhile (· != '}') = hexadecimal c.toNat := by
    rw [List.takeWhile_append_of_pos hdigits, List.takeWhile_cons_of_neg (by simp),
      List.append_nil]
  have hdrop : (hexadecimal c.toNat ++ '}' :: rest).dropWhile (· != '}') = '}' :: rest := by
    rw [List.dropWhile_append_of_pos hdigits, List.dropWhile_cons_of_neg (by simp)]
  rw [unescape?]
  split
  · simp_all
  · rename_i after h
    obtain ⟨-, rfl⟩ := List.cons.inj (hdrop.symm.trans h)
    rw [htake, codePoint?_hexadecimal]
    rfl

/-- Reading takes the escape of a character for that character. -/
theorem unescape?_escapeChar (c : Char) (rest : Text) :
    unescape? (escapeChar c ++ rest) = (unescape? rest).map (c :: ·) := by
  rcases escapeChar_cases c with ⟨e, heq, h⟩ | ⟨h, heq⟩ | heq
  · rw [heq]
    exact unescape?_pair h rest
  · rw [heq]
    exact unescape?_plain h rest
  · rw [heq]
    simpa using unescape?_codePoint c rest

theorem unescape?_escape (t : Text) : unescape? (escape t) = some t := by
  induction t with
  | nil => rw [escape, List.flatMap_nil, unescape?]
  | cons c t ih =>
    have hcons : escape (c :: t) = escapeChar c ++ escape t := List.flatMap_cons
    rw [hcons, unescape?_escapeChar, ih, Option.map_some]

/-- **A quoted text reads back** as that text. -/
theorem unquote?_quote (t : Text) : unquote? (quote t) = some t := by
  have hstrip : stripSuffix? ['"'] (escape t ++ ['"']) = some (escape t) :=
    stripSuffix?_eq_some_iff.mpr rfl
  show (stripSuffix? ['"'] (escape t ++ ['"'])).bind unescape? = some t
  rw [hstrip]
  exact unescape?_escape t

/-! ## Section 3: Literals -/

/-- A literal whose opening quote is passed, up to the next quote that is not escaped, and the rest
behind it; `none` when a line break comes first. -/
def takeLiteral? : Text → Option (Text × Text)
  | [] => none
  | '"' :: rest => some (['"'], rest)
  | '\\' :: c :: rest =>
    if isLineBreak c then none
    else (takeLiteral? rest).map fun (body, after) => ('\\' :: c :: body, after)
  | c :: rest =>
    if isLineBreak c then none
    else (takeLiteral? rest).map fun (body, after) => (c :: body, after)

theorem length_takeLiteral? {t body after : Text} (h : takeLiteral? t = some (body, after)) :
    after.length < t.length := by
  fun_induction takeLiteral? t generalizing body with
  | case1 => simp at h
  | case2 rest =>
    obtain ⟨-, rfl⟩ := Prod.mk.inj (Option.some.inj h)
    simp
  | case3 => simp at h
  | case4 c rest _ ih =>
    obtain ⟨⟨body', after'⟩, hrest, heq⟩ := Option.map_eq_some_iff.mp h
    obtain ⟨-, rfl⟩ := Prod.mk.inj heq
    have := ih hrest
    simp only [List.length_cons]
    omega
  | case5 => simp at h
  | case6 c rest _ _ _ ih =>
    obtain ⟨⟨body', after'⟩, hrest, heq⟩ := Option.map_eq_some_iff.mp h
    obtain ⟨-, rfl⟩ := Prod.mk.inj heq
    have := ih hrest
    simp only [List.length_cons]
    omega

/-- The literals of a code, each with its quotes; `none` when one is not closed in its line. -/
def literals? (t : Text) : Option (List Text) :=
  match t with
  | [] => some []
  | '"' :: rest =>
    match hrest : takeLiteral? rest with
    | none => none
    | some (body, after) =>
      have := length_takeLiteral? hrest
      (literals? after).map (('"' :: body) :: ·)
  | _ :: rest => literals? rest
termination_by t.length

/-- Characters that stand for themselves belong to the literal that they stand in. -/
theorem takeLiteral?_plain {t : Text} (h : ∀ c ∈ t, c ∉ escaped) (rest : Text) :
    takeLiteral? (t ++ rest) = (takeLiteral? rest).map fun (body, after) => (t ++ body, after) := by
  induction t with
  | nil => simp
  | cons c t ih =>
    obtain ⟨hc, ht⟩ := List.forall_mem_cons.mp h
    simp only [escaped, List.mem_cons, List.not_mem_nil, or_false, not_or] at hc
    have hbreak : isLineBreak c = false := by simp [isLineBreak, hc]
    rw [List.cons_append, takeLiteral?, if_neg (by simp [hbreak]), ih ht, Option.map_map]
    · rfl
    · exact hc.2.1
    · rintro _ _ hbackslash -
      exact hc.1 hbackslash

theorem takeLiteral?_pair {e : Char} (h : isLineBreak e = false) (rest : Text) :
    takeLiteral? ('\\' :: e :: rest) =
      (takeLiteral? rest).map fun (body, after) => ('\\' :: e :: body, after) := by
  rw [takeLiteral?, if_neg (by simp [h])]

/-- The escape of a character belongs to the literal that it stands in. -/
theorem takeLiteral?_escapeChar (c : Char) (rest : Text) :
    takeLiteral? (escapeChar c ++ rest) =
      (takeLiteral? rest).map fun (body, after) => (escapeChar c ++ body, after) := by
  rcases escapeChar_cases c with ⟨e, heq, h⟩ | ⟨h, heq⟩ | heq
  · rw [heq]
    exact takeLiteral?_pair (isLineBreak_of_simpleEscape? h) rest
  · rw [heq]
    exact takeLiteral?_plain (by simpa using h) rest
  · have hplain : ∀ d ∈ '{' :: (hexadecimal c.toNat ++ ['}']), d ∉ escaped := by
      intro d hd hescaped
      simp only [List.mem_cons, List.mem_append, List.not_mem_nil, or_false] at hd
      rcases hd with rfl | hd | rfl
      · exact absurd hescaped (by decide)
      · exact not_mem_hexadecimal (List.mem_cons_of_mem '}' hescaped) hd
      · exact absurd hescaped (by decide)
    rw [heq, List.cons_append, List.cons_append, takeLiteral?_pair (by decide),
      takeLiteral?_plain hplain, Option.map_map]
    rfl

/-- A quoted text is taken whole, whatever stands behind it. -/
theorem takeLiteral?_escape (t rest : Text) :
    takeLiteral? (escape t ++ '"' :: rest) = some (escape t ++ ['"'], rest) := by
  induction t with
  | nil => rfl
  | cons c t ih =>
    have hcons : escape (c :: t) = escapeChar c ++ escape t := List.flatMap_cons
    rw [hcons, List.append_assoc, takeLiteral?_escapeChar, ih, Option.map_some, List.append_assoc]

theorem literals?_quote (t rest : Text) :
    literals? (quote t ++ rest) = (literals? rest).map (quote t :: ·) := by
  have hquote : quote t ++ rest = '"' :: (escape t ++ '"' :: rest) := by simp [quote]
  rw [hquote, literals?]
  split
  · rename_i h
    simp [takeLiteral?_escape] at h
  · rename_i body after h
    obtain ⟨rfl, rfl⟩ := Prod.mk.inj (Option.some.inj ((takeLiteral?_escape t rest).symm.trans h))
    rfl

theorem literals?_cons {c : Char} (h : c ≠ '"') (rest : Text) :
    literals? (c :: rest) = literals? rest := by
  rw [literals?]
  exact h

theorem isLineBreak_of_mem_escapeChar {c d : Char} (h : d ∈ escapeChar c) :
    isLineBreak d = false := by
  have hplain : ∀ d ∉ escaped, isLineBreak d = false := by
    simp +contextual [escaped, isLineBreak]
  rcases escapeChar_cases c with ⟨e, heq, he⟩ | ⟨hc, heq⟩ | heq
  · rw [heq] at h
    rcases List.mem_pair.mp h with rfl | rfl
    · rfl
    · exact isLineBreak_of_simpleEscape? he
  · rw [heq, List.mem_singleton] at h
    exact hplain d (h ▸ hc)
  · rw [heq] at h
    simp only [List.mem_cons, List.mem_append, List.not_mem_nil, or_false] at h
    rcases h with rfl | rfl | rfl | h | rfl
    · rfl
    · rfl
    · rfl
    · exact hplain d fun hescaped => not_mem_hexadecimal (List.mem_cons_of_mem '}' hescaped) h
    · rfl

/-- No line ends inside quotes. -/
theorem isLineBreak_of_mem_quote {t : Text} {c : Char} (h : c ∈ quote t) :
    isLineBreak c = false := by
  simp only [quote, escape, List.cons_append, List.mem_cons, List.mem_append, List.mem_flatMap,
    List.not_mem_nil, or_false] at h
  rcases h with rfl | ⟨d, -, h⟩ | rfl
  · rfl
  · exact isLineBreak_of_mem_escapeChar h
  · rfl

/-! ## Section 4: Code with literals -/

/-- A character of code outside literals, in a line. -/
def isCodeChar (c : Char) : Bool := c != '"' && !isLineBreak c

/-- A piece of a line of code without literals. It is not unfolded but where its lemmas are proved,
since a string is decoded anew by everything that looks at its characters. -/
@[irreducible]
def isCode (piece : String) : Bool := piece.toList.all isCodeChar

theorem isCode_append (a b : String) : isCode (a ++ b) = (isCode a && isCode b) := by
  simp [isCode, String.toList_append, List.all_append]

/-- A piece given by its characters. A fixed text is one, and need not be decoded to see it. -/
theorem isCode_ofList {t : Text} (h : t.all isCodeChar = true) :
    isCode (String.ofList t) = true := by
  simpa [isCode] using h

/-- A piece of a line of code in which some texts are quoted, one after the other, and no other
quotes stand. -/
inductive Embeds : Text → List Text → Prop where
  | nil : Embeds [] []
  | code {c : Char} {rest : Text} {texts : List Text} :
      isCodeChar c = true → Embeds rest texts → Embeds (c :: rest) texts
  | quote (t : Text) {rest : Text} {texts : List Text} :
      Embeds rest texts → Embeds (quote t ++ rest) (t :: texts)

theorem ne_quote_of_isCodeChar {c : Char} (h : isCodeChar c = true) : c ≠ '"' := by
  rintro rfl
  exact absurd h (by decide)

namespace Embeds

theorem append {a b : Text} {texts texts' : List Text} (h : Embeds a texts)
    (h' : Embeds b texts') : Embeds (a ++ b) (texts ++ texts') := by
  induction h with
  | nil => exact h'
  | code hc _ ih => exact .code hc ih
  | quote t _ ih =>
    rw [List.append_assoc]
    exact .quote t ih

theorem of_isCode {piece : String} (h : isCode piece = true) : Embeds piece.toList [] := by
  have hall : ∀ c ∈ piece.toList, isCodeChar c = true := by simpa [isCode] using h
  generalize piece.toList = t at hall
  induction t with
  | nil => exact .nil
  | cons c t ih =>
    obtain ⟨hc, ht⟩ := List.forall_mem_cons.mp hall
    exact .code hc (ih ht)

/-- A quoted text between two pieces of code. -/
theorem between (before after : String) (hbefore : isCode before = true)
    (hafter : isCode after = true) (t : Text) :
    Embeds (before ++ quoted t ++ after).toList [t] := by
  rw [String.toList_append, String.toList_append, quoted, str, String.toList_ofList,
    List.append_assoc]
  exact (of_isCode hbefore).append (.quote t (of_isCode hafter))

/-- No line ends in a piece of a line. -/
theorem isLineBreak_eq_false {t : Text} {texts : List Text} (h : Embeds t texts) {c : Char}
    (hc : c ∈ t) : isLineBreak c = false := by
  induction h with
  | nil => simp at hc
  | code hcode _ ih =>
    rcases List.mem_cons.mp hc with rfl | hc
    · simpa using (Bool.and_eq_true_iff.mp hcode).2
    · exact ih hc
  | quote t _ ih =>
    rcases List.mem_append.mp hc with hc | hc
    · exact isLineBreak_of_mem_quote hc
    · exact ih hc

end Embeds

/-- **The literals of a line** are the texts that were written into it. -/
theorem literals?_append {t : Text} {texts : List Text} (h : Embeds t texts) (rest : Text) :
    literals? (t ++ rest) = (literals? rest).map (texts.map quote ++ ·) := by
  induction h with
  | nil => simp
  | code hc _ ih => rw [List.cons_append, literals?_cons (ne_quote_of_isCodeChar hc), ih]
  | quote t _ ih =>
    rw [List.append_assoc, literals?_quote, ih, Option.map_map]
    rfl

example : literals? "x = \"a\\\"b\", \"\";".toList =
    some ["\"a\\\"b\"".toList, "\"\"".toList] := by cbv

example : literals? "x = \"a\nb\"".toList = none := by cbv

end MessageCatalog.Text
