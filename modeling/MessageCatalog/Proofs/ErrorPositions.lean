import MessageCatalog.Proofs.NestedChoices

/-!
# Positions in template errors

Two scanners read a template, and each counts the characters on its own. An error that carries a
position points at the character at which reading stopped: the brace that opens a placeholder, or
the quote that is still open at the end of the text. What stands before that character was read
without it, so it can be read again by itself; only the outer scanner looks ahead, and then at one
quote.

## Main statements

* `exists_stop` : an error arises at one place, and what is read before it depends on nothing behind
* `takeBody_eq_error` : why the body of a placeholder cannot be read
* `pointsInto_of_parse` : what the position in an error points at
-/

namespace MessageCatalog

namespace Template

/-! ## Section 1: What a position points at -/

/-- A placeholder opens at `p`, and what stands before it is a template. -/
structure OpensPlaceholder (source : Text) (p : Nat) : Prop where
  brace : source[p]? = some '\x7b'
  before : ∃ t, parse (source.take p) = .ok t

/-- A quote opens at `p` that one more quote at the end of the text would close. What stands before
it is a template, or ends in a placeholder. -/
structure OpensQuote (source : Text) (p : Nat) : Prop where
  quote : source[p]? = some '\''
  before : (∃ t, parse (source.take p) = .ok t) ∨
    ∃ start, parse (source.take p) = .error (.unterminatedPlaceholder start)
  closed : ∀ q, parse (source ++ ['\'']) ≠ .error (.unterminatedQuote q)

end Template

/-- **What the position in an error points at.** An error without a position says nothing. -/
def TemplateError.PointsInto (source : Text) : TemplateError → Prop
  | .invalidIndex _ position => Template.OpensPlaceholder source position
  | .unterminatedPlaceholder position => Template.OpensPlaceholder source position
  | .unterminatedQuote position => Template.OpensQuote source position
  | _ => True

namespace Template

variable {quote : Option Nat} {depth pos start : Nat} {t front rest : Text} {e : TemplateError}

/-! ## Section 2: Bodies that cannot be read -/

/-- A scanner goes on at the next position behind a character. -/
theorem position_cons (pos : Nat) (c : Char) (front : Text) :
    pos + (c :: front).length = pos + 1 + front.length := by
  rw [List.length_cons]
  omega

/-- **Why a body cannot be read**: it has no closing brace, or a quote in it stays open. Such a
quote was open before, or it opens where the body up to it lacks nothing but the closing brace; and
with one more quote at the end only that brace is missing. -/
theorem takeBody_eq_error (h : takeBody start quote depth pos t = .error e) :
    e = .unterminatedPlaceholder start ∨ ∃ q, e = .unterminatedQuote q ∧
      takeBody start quote depth pos (t ++ ['\'']) = .error (.unterminatedPlaceholder start) ∧
      (quote = some q ∨ ∃ front rest, t = front ++ '\'' :: rest ∧ q = pos + front.length ∧
        takeBody start quote depth pos front = .error (.unterminatedPlaceholder start)) := by
  -- where the quote stands is settled behind it, so the open quote is part of the induction
  fun_induction takeBody start quote depth pos t with
  | case1 => exact .inl (Except.error.inj h).symm
  | case2 depth pos q =>
    -- the open quote meets the end of the text
    refine .inr ⟨q, (Except.error.inj h).symm, ?_, .inl rfl⟩
    simp [takeBody, Except.map]
  | case3 q depth pos c cs ih =>
    rcases ih (map_eq_error_iff.mp h) with rfl | ⟨q', rfl, hclosed, hplace⟩
    · exact .inl rfl
    refine .inr ⟨q', rfl, ?_, ?_⟩
    · rw [List.cons_append, takeBody, hclosed]
      rfl
    · rcases hplace with hquote | ⟨front, rest, rfl, rfl, hfront⟩
      · -- a quote that is open behind `c` is the one that was open before
        left
        split at hquote
        · cases hquote
        · exact hquote
      · refine .inr ⟨c :: front, rest, rfl, (position_cons pos c front).symm, ?_⟩
        rw [takeBody, hfront]
        rfl
  | case4 => cases h
  | case5 depth pos c cs hend ih =>
    rcases ih (map_eq_error_iff.mp h) with rfl | ⟨q', rfl, hclosed, hplace⟩
    · exact .inl rfl
    refine .inr ⟨q', rfl, ?_, .inr ?_⟩
    · rw [List.cons_append, takeBody, if_neg hend, hclosed]
      rfl
    · rcases hplace with hquote | ⟨front, rest, rfl, rfl, hfront⟩
      · -- the quote opens here
        split at hquote
        · rename_i hc
          obtain rfl := Option.some.inj hquote
          exact ⟨[], cs, by rw [hc]; rfl, rfl, by rw [takeBody]⟩
        · cases hquote
      · refine ⟨c :: front, rest, rfl, (position_cons pos c front).symm, ?_⟩
        rw [takeBody, if_neg hend, hfront]
        rfl

/-- An index is reported at the position of its placeholder. -/
theorem position_of_readPlaceholder {body index : Text} {position p : Nat}
    (h : readPlaceholder body position = .error (.invalidIndex index p)) : p = position := by
  rcases readPlaceholder_eq_error_iff.mp h with hindex | ⟨i, -, hformat⟩
  · simp only [readIndex] at hindex
    split at hindex
    · exact (TemplateError.invalidIndex.inj (Except.error.inj hindex)).2.symm
    · split at hindex <;> cases hindex
  · -- the type part is reported without a position
    simp only [readFormat] at hformat
    split at hformat
    · cases hformat
    · split at hformat <;> cases hformat

theorem segmentsFrom_unclosed (hbody : takeBody pos none 0 (pos + 1) t = .error e) :
    segmentsFrom none pos ('\x7b' :: t) = .error e := by
  rw [segmentsFrom]
  · rw [if_neg (by decide), if_pos ⟨rfl, rfl⟩]
    split
    · rename_i e' he
      rw [hbody] at he
      exact congrArg Except.error (Except.error.inj he).symm
    · rename_i body rest he
      rw [hbody] at he
      cases he
  · rintro rest h
    exact absurd h (by decide)

/-! ## Section 3: Where reading stops -/

/-- **What the outer scanner cannot get over**, when it stands at `p` outside quotes: a placeholder
without an end or with a part that cannot be read, or a quote that nothing closes but one more quote
at the end. -/
inductive Stops (p : Nat) : Text → TemplateError → Prop
  | body {rest : Text} {e : TemplateError} (hbody : takeBody p none 0 (p + 1) rest = .error e) :
      Stops p ('\x7b' :: rest) e
  | part {rest body after : Text} {e : TemplateError}
      (hbody : takeBody p none 0 (p + 1) rest = .ok (body, after))
      (hpart : readPlaceholder body p = .error e) : Stops p ('\x7b' :: rest) e
  | quote {rest : Text} (hlone : rest.head? ≠ some '\'')
      (hclosed : ∃ segments, segmentsFrom (some p) (p + 1) (rest ++ ['\'']) = .ok segments) :
      Stops p ('\'' :: rest) (.unterminatedQuote p)

/-- **The scanner gets over `front`** where `rest` follows, and is outside quotes then. What is read
there depends on nothing behind: another text may follow, unless it begins with a quote that would
make a pair. -/
def Passes (quote : Option Nat) (pos : Nat) (front rest : Text) : Prop :=
  ∀ other : Text, (other.head? = some '\'' → rest.head? = some '\'') →
    ∃ f, segmentsFrom quote pos (front ++ other) =
      (segmentsFrom none (pos + front.length) other).map f

namespace Passes

theorem nil : Passes none pos [] rest := by
  intro other _
  refine ⟨id, ?_⟩
  rw [List.nil_append, List.length_nil, Nat.add_zero]
  cases segmentsFrom none pos other <;> rfl

/-- One more step in front, by which the scanner maps what it reads behind it. -/
theorem step {quote' : Option Nat} (head : Text)
    (h : Passes quote' (pos + head.length) front rest)
    (hstep : ∀ other : Text, (other.head? = some '\'' → (front ++ rest).head? = some '\'') →
      ∃ f, segmentsFrom quote pos (head ++ other) =
        (segmentsFrom quote' (pos + head.length) other).map f) :
    Passes quote pos (head ++ front) rest := by
  intro other hother
  obtain ⟨g, hg⟩ := h other hother
  -- the step looks ahead by one character, which belongs to `front` or else to the other text
  have hnext : (front ++ other).head? = some '\'' → (front ++ rest).head? = some '\'' := by
    cases front with
    | nil => exact hother
    | cons c cs => exact id
  obtain ⟨f, hf⟩ := hstep (front ++ other) hnext
  refine ⟨f ∘ g, ?_⟩
  rw [List.append_assoc, hf, hg, List.length_append, Nat.add_assoc]
  cases segmentsFrom none (pos + (head.length + front.length)) other <;> rfl

theorem doubled (h : Passes quote (pos + 2) front rest) :
    Passes quote pos ('\'' :: '\'' :: front) rest :=
  step ['\'', '\''] h fun other _ => ⟨_, segmentsFrom_doubled quote pos other⟩

theorem lone (hlone : (front ++ rest).head? ≠ some '\'')
    (h : Passes (if quote.isSome then none else some pos) (pos + 1) front rest) :
    Passes quote pos ('\'' :: front) rest := by
  refine step ['\''] h fun other hother => ⟨id, ?_⟩
  rw [List.singleton_append, segmentsFrom_quote quote pos fun ho => hlone (hother ho),
    List.length_singleton]
  cases segmentsFrom (if quote.isSome then none else some pos) (pos + 1) other <;> rfl

theorem char {c : Char} (hquote : c ≠ '\'') (hopen : c = '\x7b' → quote ≠ none)
    (h : Passes quote (pos + 1) front rest) : Passes quote pos (c :: front) rest :=
  step [c] h fun other _ => ⟨_, segmentsFrom_char pos other hquote hopen⟩

theorem placeholder {body : Text} {p : Placeholder}
    (hbody : takeBody pos none 0 (pos + 1) t = .ok (body, front ++ rest))
    (hp : readPlaceholder body pos = .ok p) (h : Passes none (pos + body.length + 2) front rest) :
    Passes none pos ('\x7b' :: (body ++ '\x7d' :: front)) rest := by
  have hcloses := (takeBody_eq_ok_iff.mp hbody).2
  have htext : '\x7b' :: (body ++ '\x7d' :: front) = '\x7b' :: (body ++ ['\x7d']) ++ front := by
    simp
  have hlength : pos + body.length + 2 = pos + ('\x7b' :: (body ++ ['\x7d'])).length := by
    simp only [List.length_cons, List.length_append, List.length_nil]
    omega
  rw [hlength] at h
  rw [htext]
  refine step _ h fun other _ => ⟨(Segment.placeholder p :: ·), ?_⟩
  rw [← hlength, List.cons_append, List.append_assoc, List.singleton_append]
  exact segmentsFrom_placeholder (takeBody_append hcloses) hp

end Passes

/-- **An error arises at one place.** Either the quote that is open from the start stays open, or
the scanner gets to a place outside quotes at which it stops. -/
theorem exists_stop (h : segmentsFrom quote pos t = .error e) :
    (∃ q, quote = some q ∧ e = .unterminatedQuote q ∧
      ∃ segments, segmentsFrom quote pos (t ++ ['\'']) = .ok segments) ∨
    ∃ front rest, t = front ++ rest ∧ Stops (pos + front.length) rest e ∧
      Passes quote pos front rest := by
  -- one case for each step of the scanner: a step that succeeds is put in front of what follows
  fun_induction segmentsFrom quote pos t with
  | case1 pos q =>
    refine .inl ⟨q, rfl, (Except.error.inj h).symm, [], ?_⟩
    rw [List.nil_append, segmentsFrom_quote _ _ (by simp)]
    exact segmentsFrom_nil _
  | case2 => cases h
  | case3 quote pos rest ih =>
    -- a pair of quotes opens nothing and closes nothing
    rcases ih (map_eq_error_iff.mp h) with
      ⟨q, hq, he, segments, hread⟩ | ⟨front, rest, rfl, hs, hp⟩
    · refine .inl ⟨q, hq, he, Segment.consChar '\'' segments, ?_⟩
      rw [List.cons_append, List.cons_append, segmentsFrom_doubled, hread]
      rfl
    · refine .inr ⟨'\'' :: '\'' :: front, rest, rfl, ?_, hp.doubled⟩
      rwa [position_cons, position_cons]
  | case4 quote pos cs hcs ih =>
    have hlone : cs.head? ≠ some '\'' := by
      intro hhead
      obtain ⟨rest, rfl⟩ := List.head?_eq_some_iff.mp hhead
      exact hcs rest rfl rfl
    rcases ih h with ⟨q, hq, rfl, hread⟩ | ⟨front, rest, rfl, hs, hp⟩
    · cases quote with
      | some q' => cases hq
      | none =>
        -- the quote opens here and stays open
        obtain rfl := Option.some.inj hq
        exact .inr ⟨[], '\'' :: cs, rfl, .quote hlone hread, .nil⟩
    · refine .inr ⟨'\'' :: front, rest, rfl, ?_, hp.lone hlone⟩
      rwa [position_cons]
  | case5 quote pos c cs hpair hquote hopen e' hbody =>
    obtain ⟨rfl, rfl⟩ := hopen
    obtain rfl := Except.error.inj h
    exact .inr ⟨[], '\x7b' :: cs, rfl, .body hbody, .nil⟩
  | case6 quote pos c cs hpair hquote hopen body rest hbody e' hp =>
    obtain ⟨rfl, rfl⟩ := hopen
    obtain rfl := Except.error.inj h
    exact .inr ⟨[], '\x7b' :: cs, rfl, .part hbody hp, .nil⟩
  | case7 quote pos c cs hpair hquote hopen body rest hbody p hp _ ih =>
    obtain ⟨rfl, rfl⟩ := hopen
    rcases ih (map_eq_error_iff.mp h) with ⟨q, hq, -⟩ | ⟨front, rest, rfl, hs, hpasses⟩
    · -- behind a placeholder no quote is open
      cases hq
    · obtain ⟨rfl, -⟩ := takeBody_eq_ok_iff.mp hbody
      have hlength : pos + ('\x7b' :: (body ++ '\x7d' :: front)).length =
          pos + body.length + 2 + front.length := by
        simp only [List.length_cons, List.length_append]
        omega
      refine .inr ⟨'\x7b' :: (body ++ '\x7d' :: front), rest, by simp, ?_, ?_⟩
      · rwa [hlength]
      · exact hpasses.placeholder hbody hp
  | case8 quote pos c cs hpair hquote hopen ih =>
    have hbrace : c = '\x7b' → quote ≠ none := fun hc hq => hopen ⟨hc, hq⟩
    rcases ih (map_eq_error_iff.mp h) with
      ⟨q, hq, he, segments, hread⟩ | ⟨front, rest, rfl, hs, hp⟩
    · refine .inl ⟨q, hq, he, Segment.consChar c segments, ?_⟩
      rw [List.cons_append, segmentsFrom_char pos _ hquote hbrace, hread]
      rfl
    · refine .inr ⟨c :: front, rest, rfl, ?_, hp.char hquote hbrace⟩
      rwa [position_cons]

/-! ## Section 4: The text before and behind an error -/

theorem exists_parse_iff {source : Text} :
    (∃ t, parse source = .ok t) ↔ ∃ segments, segmentsFrom none 0 source = .ok segments := by
  cases h : segmentsFrom none 0 source <;> simp [parse, h, Except.map]

/-- Behind a part that the scanner gets over, a text is read as on its own. -/
theorem Passes.exists_parse (h : Passes none 0 front rest) (other : Text)
    (hother : other.head? = some '\'' → rest.head? = some '\'')
    (hread : ∃ segments, segmentsFrom none front.length other = .ok segments) :
    ∃ t, parse (front ++ other) = .ok t := by
  obtain ⟨f, hf⟩ := h other hother
  obtain ⟨segments, hsegments⟩ := hread
  rw [Nat.zero_add, hsegments] at hf
  exact exists_parse_iff.mpr ⟨f segments, hf⟩

/-- A placeholder without an end fails behind such a part as on its own. -/
theorem Passes.parse_error {other : Text} (h : Passes none 0 front ('\x7b' :: rest))
    (hbody : takeBody front.length none 0 (front.length + 1) other = .error e) :
    parse (front ++ '\x7b' :: other) = .error e := by
  obtain ⟨f, hf⟩ := h ('\x7b' :: other) fun hhead => hhead
  rw [Nat.zero_add, segmentsFrom_unclosed hbody] at hf
  exact map_eq_error_iff.mpr hf

/-- The part that the scanner gets over is a template. -/
theorem Passes.exists_parse_front (h : Passes none 0 front rest) : ∃ t, parse front = .ok t := by
  have hfront := h.exists_parse [] (fun hhead => by cases hhead) ⟨[], segmentsFrom_nil _⟩
  rwa [List.append_nil] at hfront

theorem Passes.opensPlaceholder (h : Passes none 0 front ('\x7b' :: rest)) :
    OpensPlaceholder (front ++ '\x7b' :: rest) front.length where
  brace := by simp
  before := by
    rw [List.take_left]
    exact h.exists_parse_front

/-- A quote that stays open outside placeholders. -/
theorem Passes.opensQuote (h : Passes none 0 front ('\'' :: rest))
    (hlone : rest.head? ≠ some '\'')
    (hclosed : ∃ segments,
      segmentsFrom (some front.length) (front.length + 1) (rest ++ ['\'']) = .ok segments) :
    OpensQuote (front ++ '\'' :: rest) front.length where
  quote := by simp
  before := by
    rw [List.take_left]
    exact .inl h.exists_parse_front
  closed := by
    have hread : ∃ segments,
        segmentsFrom none front.length ('\'' :: rest ++ ['\'']) = .ok segments := by
      cases rest with
      | nil =>
        -- the two quotes make a pair
        exact ⟨_, by rw [List.singleton_append, segmentsFrom_doubled, segmentsFrom_nil]; rfl⟩
      | cons c cs =>
        obtain ⟨segments, hsegments⟩ := hclosed
        have hlone' : (c :: cs ++ ['\'']).head? ≠ some '\'' := hlone
        refine ⟨segments, ?_⟩
        rw [List.cons_append, segmentsFrom_quote _ _ hlone']
        exact hsegments
    obtain ⟨t, ht⟩ := h.exists_parse _ (fun _ => rfl) hread
    intro q hq
    rw [List.append_assoc, ht] at hq
    cases hq

/-- A quote that stays open in a placeholder. -/
theorem Passes.opensQuote_of_body {inner : Text}
    (h : Passes none 0 front ('\x7b' :: (inner ++ '\'' :: rest)))
    (hinner : takeBody front.length none 0 (front.length + 1) inner =
      .error (.unterminatedPlaceholder front.length))
    (hclosed : takeBody front.length none 0 (front.length + 1) (inner ++ '\'' :: rest ++ ['\'']) =
      .error (.unterminatedPlaceholder front.length)) :
    OpensQuote (front ++ '\x7b' :: (inner ++ '\'' :: rest)) (front.length + 1 + inner.length) := by
  have htext : front ++ '\x7b' :: (inner ++ '\'' :: rest) =
      (front ++ '\x7b' :: inner) ++ '\'' :: rest := by simp
  have hlength : front.length + 1 + inner.length = (front ++ '\x7b' :: inner).length := by
    simp only [List.length_append, List.length_cons]
    omega
  constructor
  · rw [htext, hlength]
    simp
  · rw [htext, hlength, List.take_left]
    exact .inr ⟨front.length, h.parse_error hinner⟩
  · intro q hq
    rw [List.append_assoc, List.cons_append, h.parse_error hclosed] at hq
    cases hq

theorem Passes.pointsInto (h : Passes none 0 front rest) (hstops : Stops front.length rest e) :
    e.PointsInto (front ++ rest) := by
  cases hstops with
  | body hbody =>
    rcases takeBody_eq_error hbody with rfl | ⟨q, rfl, hclosed, hquote⟩
    · exact h.opensPlaceholder
    · rcases hquote with hquote | ⟨inner, rest, rfl, rfl, hinner⟩
      · cases hquote
      · exact h.opensQuote_of_body hinner hclosed
  | part hbody hpart =>
    cases ofPart_of_readPlaceholder hpart with
    | index index position =>
      obtain rfl := position_of_readPlaceholder hpart
      exact h.opensPlaceholder
    | range index => trivial
    | type keyword index => trivial
  | quote hlone hclosed => exact h.opensQuote hlone hclosed

/-- **The positions in template errors are right.** Where an index is invalid or a placeholder has
no end, a brace stands at the position and a template before it. Where a quote is open at the end, a
quote stands at the position, before it a template or one whose last placeholder is cut off, and one
more quote at the end closes it. -/
theorem pointsInto_of_parse {source : Text} (h : parse source = .error e) :
    e.PointsInto source := by
  rcases exists_stop (map_eq_error_iff.mp h) with
    ⟨q, hq, -⟩ | ⟨front, rest, rfl, hstops, hpasses⟩
  · cases hq
  · rw [Nat.zero_add] at hstops
    exact hpasses.pointsInto hstops

/-- Behind a pair of quotes and a quoted brace: an index that is none, a placeholder without an end,
a quote at the very end, and one in a placeholder. -/
theorem pointsInto_of_parse_quoted :
    let front : Text := "it''s '\x7b' \x7b0\x7d ".toList
    let indexed : Text := front ++ "\x7bx\x7d '".toList
    let unclosed : Text := front ++ "\x7b1,choice,0#\x7b2\x7d".toList
    let quoted : Text := front ++ "'".toList
    let inner : Text := front ++ "\x7b1,choice,'|".toList
    parse indexed = .error (.invalidIndex ['x'] 14) ∧ OpensPlaceholder indexed 14 ∧
      parse unclosed = .error (.unterminatedPlaceholder 14) ∧ OpensPlaceholder unclosed 14 ∧
      parse quoted = .error (.unterminatedQuote 14) ∧ OpensQuote quoted 14 ∧
      parse inner = .error (.unterminatedQuote 24) ∧ OpensQuote inner 24 := by
  intro front indexed unclosed quoted inner
  have hindexed : parse indexed = .error (.invalidIndex ['x'] 14) := by decide +kernel
  have hunclosed : parse unclosed = .error (.unterminatedPlaceholder 14) := by decide +kernel
  have hquoted : parse quoted = .error (.unterminatedQuote 14) := by decide +kernel
  have hinner : parse inner = .error (.unterminatedQuote 24) := by decide +kernel
  exact ⟨hindexed, pointsInto_of_parse hindexed, hunclosed, pointsInto_of_parse hunclosed,
    hquoted, pointsInto_of_parse hquoted, hinner, pointsInto_of_parse hinner⟩

end Template

end MessageCatalog
