import MessageCatalog.Template.Basic

/-!
# Reading templates

A single quote opens or closes a quoted span in which braces are literal text; two quotes in a row
are one literal quote. Inside a placeholder quotes are kept as they stand: they only keep braces
and commas from counting. The body of a placeholder ends at the brace that closes it and is split
at its first two commas outside quotes, also where those stand between inner braces.

## Main statements

* `takeBody_length` : a body, its closing brace and the rest make up the text
* `length_style_lt` : the style of every placeholder is shorter than the template
-/

namespace MessageCatalog.Template

open Text

/-! ## Section 1: The body of a placeholder -/

/-- The number of open inner braces after one more unquoted character. -/
def depthAfter (c : Char) (depth : Nat) : Nat :=
  if c = '{' then depth + 1 else if c = '}' then depth - 1 else depth

/-- Read the body of the placeholder opened at `start` up to its closing brace; gives the body and
the text after the brace. `quote` is the position of the quote that is open, `depth` the number of
inner braces that are open, `pos` the position of the next character. -/
def takeBody (start : Nat) :
    (quote : Option Nat) → (depth pos : Nat) → Text → Except TemplateError (Text × Text)
  | none, _, _, [] => .error (.unterminatedPlaceholder start)
  | some q, _, _, [] => .error (.unterminatedQuote q)
  | some q, depth, pos, c :: cs =>
    (takeBody start (if c = '\'' then none else some q) depth (pos + 1) cs).map
      fun (body, rest) => (c :: body, rest)
  | none, depth, pos, c :: cs =>
    if c = '}' ∧ depth = 0 then .ok ([], cs)
    else
      (takeBody start (if c = '\'' then some pos else none) (depthAfter c depth) (pos + 1) cs).map
        fun (body, rest) => (c :: body, rest)

/-- A body, its closing brace and the rest make up the text. -/
theorem takeBody_length {start : Nat} {quote : Option Nat} {depth pos : Nat} {t body rest : Text}
    (h : takeBody start quote depth pos t = .ok (body, rest)) :
    body.length + rest.length + 1 = t.length := by
  fun_induction takeBody start quote depth pos t generalizing body rest with
  | case1 => simp at h
  | case2 => simp at h
  | case3 q depth pos c cs ih =>
    obtain ⟨⟨b, r⟩, hb, he⟩ := map_eq_ok_iff.1 h
    obtain ⟨rfl, rfl⟩ : c :: b = body ∧ r = rest := by simpa using he
    have := ih hb
    simp only [List.length_cons]
    omega
  | case4 depth pos c cs hc =>
    obtain ⟨rfl, rfl⟩ : [] = body ∧ cs = rest := by simpa using h
    simp
  | case5 depth pos c cs hc ih =>
    obtain ⟨⟨b, r⟩, hb, he⟩ := map_eq_ok_iff.1 h
    obtain ⟨rfl, rfl⟩ : c :: b = body ∧ r = rest := by simpa using he
    have := ih hb
    simp only [List.length_cons]
    omega

/-- Split at the first comma outside quotes, if there is one. -/
def breakAtComma (quoted : Bool) : Text → Text × Option Text
  | [] => ([], none)
  | c :: cs =>
    if c = ',' ∧ quoted = false then ([], some cs)
    else
      let (part, rest) := breakAtComma (if c = '\'' then !quoted else quoted) cs
      (c :: part, rest)

/-- What follows the comma is shorter than the text. -/
theorem breakAtComma_length {quoted : Bool} {t part rest : Text}
    (h : breakAtComma quoted t = (part, some rest)) : part.length + rest.length + 1 = t.length := by
  induction t generalizing quoted part with
  | nil => simp [breakAtComma] at h
  | cons c cs ih =>
    by_cases hc : c = ',' ∧ quoted = false
    · obtain ⟨rfl, rfl⟩ : [] = part ∧ cs = rest := by simpa [breakAtComma, hc] using h
      simp
    · rcases hb : breakAtComma (if c = '\'' then !quoted else quoted) cs with ⟨part', rest'⟩
      obtain ⟨rfl, rfl⟩ : c :: part' = part ∧ rest' = some rest := by
        simpa only [breakAtComma, hc, if_false, hb, Prod.mk.injEq] using h
      have := ih hb
      simp only [List.length_cons]
      omega

/-- The three parts of a body: index, type and style; the last two may be absent. -/
def splitBody (body : Text) : Text × Option Text × Option Text :=
  match breakAtComma false body with
  | (index, none) => (index, none, none)
  | (index, some rest) =>
    let (keyword, style) := breakAtComma false rest
    (index, some keyword, style)

/-- A style is shorter than its body. -/
theorem splitBody_length {body index style : Text} {keyword : Option Text}
    (h : splitBody body = (index, keyword, some style)) : style.length < body.length := by
  unfold splitBody at h
  split at h
  · simp at h
  · rename_i index' rest hb
    have hs : breakAtComma false rest = ((breakAtComma false rest).1, some style) :=
      Prod.ext rfl (by simpa using (congrArg (·.2.2) h))
    have := breakAtComma_length hb
    have := breakAtComma_length hs
    omega

/-! ## Section 2: Placeholders -/

/-- Read the index part of the placeholder at `position`. -/
def readIndex (index : Text) (position : Nat) : Except TemplateError Nat :=
  let index := trim index
  if !isNumeral index then .error (.invalidIndex index position)
  else if value index ≤ Placeholder.maxIndex then .ok (value index)
  else .error (.indexOutOfRange (min (value index) (2 ^ 64 - 1)))

/-- Read the type and the style part of a placeholder. A blank type part makes it untyped and
drops the style. -/
def readFormat (index : Nat) (keyword style : Option Text) :
    Except TemplateError (Option Format) :=
  let keyword := lower (trim (keyword.getD []))
  if keyword = [] then .ok none
  else
    match FormatKind.ofKeyword? keyword with
    | none => .error (.unknownFormatType keyword index)
    | some kind => .ok (some ⟨kind, style.filter fun s => !blank s⟩)

/-- Read a placeholder from its body. -/
def readPlaceholder (body : Text) (position : Nat) : Except TemplateError Placeholder := do
  let (index, keyword, style) := splitBody body
  let index ← readIndex index position
  let format ← readFormat index keyword style
  return ⟨index, format⟩

/-- The style of a placeholder is shorter than its body. -/
theorem length_style_lt_body {body style : Text} {position : Nat} {p : Placeholder}
    (h : readPlaceholder body position = .ok p) (hs : p.style = some style) :
    style.length < body.length := by
  rcases hb : splitBody body with ⟨index, keyword, rawStyle⟩
  simp only [readPlaceholder, hb, bind, Except.bind] at h
  cases hi : readIndex index position with
  | error e => simp [hi] at h
  | ok i =>
    simp only [hi] at h
    cases hf : readFormat i keyword rawStyle with
    | error e => simp [hf] at h
    | ok f =>
      simp only [hf, pure, Except.pure, Except.ok.injEq] at h
      subst h
      have hraw : rawStyle = some style := by
        unfold readFormat at hf
        simp only [] at hf
        split at hf
        · simp only [Except.ok.injEq] at hf
          subst hf
          simp [Placeholder.style] at hs
        · split at hf
          · simp at hf
          · simp only [Except.ok.injEq] at hf
            subst hf
            exact (Option.filter_eq_some_iff.1 (by simpa only [Placeholder.style, Option.bind_some] using hs)).1
      subst hraw
      exact splitBody_length hb

/-! ## Section 3: Templates -/

/-- Read the segments of a text. `quote` is the position of the quote that is open, `pos` the
position of the next character. -/
def segmentsFrom (quote : Option Nat) (pos : Nat) (t : Text) :
    Except TemplateError (List Segment) :=
  match t with
  | [] =>
    match quote with
    | some q => .error (.unterminatedQuote q)
    | none => .ok []
  -- a doubled quote is literal whether or not a quote is open
  | '\'' :: '\'' :: rest => (segmentsFrom quote (pos + 2) rest).map (Segment.consChar '\'')
  | c :: cs =>
    if c = '\'' then segmentsFrom (if quote.isSome then none else some pos) (pos + 1) cs
    else if c = '{' ∧ quote = none then
      match hb : takeBody pos none 0 (pos + 1) cs with
      | .error e => .error e
      | .ok (body, rest) =>
        match readPlaceholder body pos with
        | .error e => .error e
        | .ok p =>
          have := takeBody_length hb
          (segmentsFrom none (pos + body.length + 2) rest).map (Segment.placeholder p :: ·)
    else (segmentsFrom quote (pos + 1) cs).map (Segment.consChar c)
termination_by t.length

/-- Read a template. -/
def parse (source : Text) : Except TemplateError Template :=
  (segmentsFrom none 0 source).map (⟨source, ·⟩)

/-- The style of every placeholder is shorter than the text it was read from. -/
theorem length_style_lt_of_segmentsFrom {quote : Option Nat} {pos : Nat} {t style : Text}
    {segments : List Segment} {p : Placeholder} (h : segmentsFrom quote pos t = .ok segments)
    (hp : p ∈ Segment.placeholders segments) (hs : p.style = some style) :
    style.length < t.length := by
  fun_induction segmentsFrom quote pos t generalizing segments with
  | case1 => simp at h
  | case2 =>
    obtain rfl : [] = segments := by simpa using h
    simp at hp
  | case3 quote pos rest ih =>
    obtain ⟨r, hr, rfl⟩ := map_eq_ok_iff.1 h
    have := ih hr (by simpa using hp)
    simp only [List.length_cons]
    omega
  | case4 quote pos cs hcs ih =>
    have := ih h hp
    simp only [List.length_cons]
    omega
  | case5 => simp at h
  | case6 => simp at h
  | case7 quote pos c cs _ _ _ body rest hb q hq _ ih =>
    obtain ⟨r, hr, rfl⟩ := map_eq_ok_iff.1 h
    have hlen := takeBody_length hb
    simp only [List.length_cons]
    rcases List.mem_cons.1 (by simpa using hp : p ∈ q :: Segment.placeholders r) with rfl | hp
    · have := length_style_lt_body hq hs
      omega
    · have := ih hr hp
      omega
  | case8 quote pos c cs _ _ _ ih =>
    obtain ⟨r, hr, rfl⟩ := map_eq_ok_iff.1 h
    have := ih hr (by simpa using hp)
    simp only [List.length_cons]
    omega

/-- The style of every placeholder is shorter than the template. -/
theorem length_style_lt {source style : Text} {t : Template} {p : Placeholder}
    (h : parse source = .ok t) (hp : p ∈ t.placeholders) (hs : p.style = some style) :
    style.length < source.length := by
  obtain ⟨segments, hr, rfl⟩ := map_eq_ok_iff.1 h
  exact length_style_lt_of_segmentsFrom hr hp hs

end MessageCatalog.Template
