import MessageCatalog.Message.Reader
import MessageCatalog.Proofs.TemplateScanner
import Mathlib.Data.List.Chain

/-!
# How deep messages nest

Formatting and reading a message go on inside the alternatives of its choices, which are templates
again. Such a template is cut out of the style of a placeholder, and the style out of the template
around it, so the recursion ends, and never gets deeper than the template is long.

To speak of the calls that a run makes, the two functions are written as procedures that leave their
nested calls open. Run with any answers to its calls, a procedure gives what the function gives with
these answers, so no call that matters is left out.

## Main statements

* `descends` : a procedure that calls itself on smaller inputs only
* `properPart_of_alternative` : alternatives are proper parts of the template
* `run_formatBody`, `run_readBody` : formatting and reading as such procedures
* `nesting_descends` : their nested templates are shorter, and the length bounds the depth
-/

namespace MessageCatalog

open Text

/-! ## Section 1: Procedures that call themselves -/

/-- **The body of a procedure**: a result, or a nested call and how to go on with what it gives. -/
inductive Body (ι ο α : Type) where
  | done (result : α)
  | call (input : ι) (resume : ο → Body ι ο α)

namespace Body

variable {ι ο ε α β : Type}

/-- Run a body, with `f` for the nested calls. -/
def run (f : ι → ο) : Body ι ο α → α
  | done a => a
  | call i resume => (resume (f i)).run f

/-- The inputs of the nested calls of a run, in order. -/
def calls (f : ι → ο) : Body ι ο α → List ι
  | done _ => []
  | call i resume => i :: (resume (f i)).calls f

/-- Run a body with nested calls that may be refused. A refused call ends the run at once: unlike a
failure it is no result that the body could go on with. -/
def run? (f : ι → Option ο) : Body ι ο α → Option α
  | done a => some a
  | call i resume => (f i).bind fun o => (resume o).run? f

/-- Go on with the result of a body that does not fail. -/
def andThen : Body ι ο (Except ε α) → (α → Body ι ο (Except ε β)) → Body ι ο (Except ε β)
  | done (.error e), _ => done (.error e)
  | done (.ok a), next => next a
  | call i resume, next => call i fun o => (resume o).andThen next

/-- Whatever the nested calls give, every one of them has an input with the property. -/
def CallsOnly (P : ι → Prop) : Body ι ο α → Prop
  | done _ => True
  | call i resume => P i ∧ ∀ o, (resume o).CallsOnly P

variable {f : ι → ο} {P : ι → Prop}

theorem run_andThen (x : Body ι ο (Except ε α)) (next : α → Body ι ο (Except ε β)) :
    (x.andThen next).run f = x.run f >>= fun a => (next a).run f := by
  induction x with
  | done r => cases r <;> rfl
  | call i resume ih => exact ih (f i)

theorem CallsOnly.andThen {x : Body ι ο (Except ε α)} {next : α → Body ι ο (Except ε β)}
    (hx : x.CallsOnly P) (hnext : ∀ a, (next a).CallsOnly P) : (x.andThen next).CallsOnly P := by
  induction x with
  | done r =>
    cases r with
    | error e => trivial
    | ok a => exact hnext a
  | call i resume ih => exact ⟨hx.1, fun o => ih o (hx.2 o)⟩

theorem CallsOnly.of_mem_calls {x : Body ι ο α} (h : x.CallsOnly P) {i : ι}
    (hi : i ∈ x.calls f) : P i := by
  induction x with
  | done r => cases hi
  | call j resume ih =>
    rcases List.mem_cons.mp hi with rfl | hlater
    · exact h.1
    · exact ih (f j) (h.2 (f j)) hlater

/-- Where no call is refused, the run is the one without refusals. -/
theorem run?_eq_some {g : ι → Option ο} (x : Body ι ο α) (h : ∀ i ∈ x.calls f, g i = some (f i)) :
    x.run? g = some (x.run f) := by
  induction x with
  | done r => rfl
  | call i resume ih =>
    rw [run?, h i List.mem_cons_self]
    exact ih (f i) fun j hj => h j (List.mem_cons_of_mem _ hj)

/-- Run a procedure with at most `limit` nested calls open at a time. -/
def runWithin (body : ι → Body ι ο ο) : (limit : Nat) → ι → Option ο
  | 0, i => (body i).run? fun _ => none
  | limit + 1, i => (body i).run? (runWithin body limit)

/-- **Calls that are open at one time** while a procedure runs on `i`: each is made by the one
before it, the first one by the run itself. -/
def OpenCalls (body : ι → Body ι ο ο) (f : ι → ο) (i : ι) (stack : List ι) : Prop :=
  List.IsChain (fun j k => k ∈ (body j).calls f) (i :: stack)

/-- **A recursion goes down** from `i`: the nested calls of `f`, of which this is the body, are on
smaller inputs, so that the size bounds how many are open at a time, and a limit of that size or
above refuses none. -/
structure Descends (body : ι → Body ι ο ο) (f : ι → ο) (size : ι → Nat) (i : ι) : Prop where
  run_eq : (body i).run f = f i
  size_lt : ∀ j ∈ (body i).calls f, size j < size i
  depth_le : ∀ stack, OpenCalls body f i stack → stack.length ≤ size i
  runWithin_eq : ∀ limit, size i ≤ limit → runWithin body limit i = some (f i)

/-- A procedure whose nested calls are all on smaller inputs goes down from every input. -/
theorem descends {body : ι → Body ι ο ο} {size : ι → Nat} (hf : ∀ i, (body i).run f = f i)
    (hlt : ∀ i, ∀ j ∈ (body i).calls f, size j < size i) (i : ι) : Descends body f size i where
  run_eq := hf i
  size_lt := hlt i
  depth_le stack := by
    induction stack generalizing i with
    | nil => exact fun _ => Nat.zero_le _
    | cons j stack ih =>
      intro hopen
      obtain ⟨hcall, hrest⟩ := List.isChain_cons_cons.mp hopen
      have hdepth := ih j hrest
      have hsize := hlt i j hcall
      rw [List.length_cons]
      omega
  runWithin_eq limit := by
    induction limit generalizing i with
    | zero =>
      -- an input of size zero makes no calls
      intro hlimit
      rw [runWithin, run?_eq_some, hf]
      intro j hj
      have := hlt i j hj
      omega
    | succ limit ih =>
      -- one call less may be open in the nested runs, and their inputs are smaller by one at least
      intro hlimit
      rw [runWithin, run?_eq_some, hf]
      intro j hj
      have := hlt i j hj
      exact ih j (by omega)

end Body

/-! ## Section 2: Parts of a template -/

namespace Template

/-- A style is the end of its body. -/
theorem isSuffix_of_splitBody {body index style : Text} {keyword : Option Text}
    (h : splitBody body = (index, keyword, some style)) : style <:+ body := by
  obtain ⟨hbody, hkeyword⟩ := splitBody_eq_join h
  cases keyword with
  | none => cases hkeyword rfl
  | some keyword =>
    refine ⟨index ++ ',' :: keyword ++ [','], ?_⟩
    rw [hbody]
    simp [join, List.intercalate]

/-- So is the style that a placeholder keeps. -/
theorem isSuffix_of_readPlaceholder {body style : Text} {position : Nat} {p : Placeholder}
    (h : readPlaceholder body position = .ok p) (hstyle : p.style = some style) :
    style <:+ body := by
  obtain ⟨-, hformat⟩ := readPlaceholder_eq_ok_iff.mp h
  rcases readFormat_eq_ok_iff.mp hformat with ⟨-, hnone⟩ | ⟨-, kind, -, hsome⟩
  · rw [Placeholder.style, hnone] at hstyle
    cases hstyle
  · rw [Placeholder.style, hsome] at hstyle
    have hraw := (Option.filter_eq_some_iff.mp hstyle).1
    exact isSuffix_of_splitBody (Prod.ext rfl (Prod.ext rfl hraw))

/-- The style of every placeholder is a part of the text that it was read from. -/
theorem isInfix_of_segmentsFrom {quote : Option Nat} {pos : Nat} {t style : Text}
    {segments : List Segment} {p : Placeholder} (h : segmentsFrom quote pos t = .ok segments)
    (hp : p ∈ Segment.placeholders segments) (hstyle : p.style = some style) : style <:+: t := by
  -- every step of the scanner leaves an end of the text, and a part of that is a part of the text
  fun_induction segmentsFrom quote pos t generalizing segments with
  | case1 => cases h
  | case2 =>
    obtain rfl := Except.ok.inj h
    cases hp
  | case3 quote pos rest ih =>
    obtain ⟨segments, hread, rfl⟩ := map_eq_ok_iff.mp h
    rw [Segment.placeholders_consChar] at hp
    exact List.infix_cons (List.infix_cons (ih hread hp))
  | case4 quote pos cs hcs ih => exact List.infix_cons (ih h hp)
  | case5 => cases h
  | case6 => cases h
  | case7 quote pos c cs hpair hquote hopen body rest hbody q hq _ ih =>
    obtain ⟨segments, hread, rfl⟩ := map_eq_ok_iff.mp h
    obtain ⟨rfl, -⟩ := takeBody_eq_ok_iff.mp hbody
    rcases List.mem_cons.mp hp with rfl | hlater
    · have hpart : body <:+: c :: (body ++ '\x7d' :: rest) := ⟨[c], '\x7d' :: rest, rfl⟩
      exact (isSuffix_of_readPlaceholder hq hstyle).isInfix.trans hpart
    · have hpart : rest <:+ c :: (body ++ '\x7d' :: rest) := ⟨c :: (body ++ ['\x7d']), by simp⟩
      exact (ih hread hlater).trans hpart.isInfix
  | case8 quote pos c cs hpair hquote hopen ih =>
    obtain ⟨segments, hread, rfl⟩ := map_eq_ok_iff.mp h
    rw [Segment.placeholders_consChar] at hp
    exact List.infix_cons (ih hread hp)

end Template

namespace Choice

theorem isInfix_join {part : Text} {parts : List Text} (h : part ∈ parts) :
    part <:+: join ['|'] parts := by
  rw [join]
  induction parts with
  | nil => cases h
  | cons first rest ih =>
    cases rest with
    | nil =>
      obtain rfl := List.mem_singleton.mp h
      exact List.intercalate_singleton ▸ List.infix_rfl
    | cons next rest =>
      rw [List.intercalate_cons_cons]
      rcases List.mem_cons.mp h with rfl | hlater
      · rw [List.append_assoc]
        exact (List.prefix_append _ _).isInfix
      · exact (ih hlater).trans (List.suffix_append _ _).isInfix

/-- The text of an alternative is a part of the pattern. -/
theorem isInfix_of_parse? {pattern : Text} {choice : Choice} {a : Alternative}
    (h : parse? pattern = some choice) (ha : a ∈ choice.alternatives) : a.text <:+: pattern := by
  obtain ⟨as, has, rfl⟩ := Option.map_eq_some_iff.mp h
  obtain ⟨part, hpart, hread⟩ := exists_part has ha
  have hpattern : part <:+: pattern := by
    have := isInfix_join hpart
    rwa [join_splitBars] at this
  refine List.IsInfix.trans ?_ hpattern
  unfold readAlternative? at hread
  split at hread
  · cases hread
  · rename_i relation text hdrop
    obtain ⟨limit, -, rfl⟩ := Option.map_eq_some_iff.mp hread
    have hsuffix : relation :: text <:+ part := hdrop ▸ List.dropWhile_suffix _
    exact ((List.suffix_cons relation text).trans hsuffix).isInfix

end Choice

namespace Message

/-- **A proper part of a template**: a stretch of its characters, and not all of them. -/
def ProperPart (inner template : Text) : Prop :=
  inner <:+: template ∧ inner.length < template.length

/-- What holds of every alternative, where the placeholder has a style that reads as a choice. -/
def AllAlternatives (P : Text → Prop) (p : Placeholder) : Prop :=
  ∀ choice, Choice.parse (choicePattern p) = .ok choice → ∀ a ∈ choice.alternatives, P a.text

/-- **Alternatives are proper parts of the template.** They are cut out of the style of a
placeholder, which is cut out of the template. -/
theorem properPart_of_alternative {template : Text} {t : Template} {p : Placeholder}
    (hparse : Template.parse template = .ok t) (hp : p ∈ t.placeholders) :
    AllAlternatives (ProperPart · template) p := by
  intro choice hchoice a ha
  have hread := Choice.parse?_of_parse hchoice
  have hstyle : choicePattern p <:+: template := by
    unfold choicePattern
    cases hs : p.style with
    | none => exact List.nil_infix
    | some style =>
      obtain ⟨segments, hsegments, rfl⟩ := map_eq_ok_iff.mp hparse
      exact Template.isInfix_of_segmentsFrom hsegments hp hs
  exact ⟨(Choice.isInfix_of_parse? hread ha).trans hstyle,
    Nat.lt_of_lt_of_le (Choice.length_alternative_lt hread ha) hstyle.length_le⟩

/-! ## Section 3: Formatting -/

/-- The bodies of formatting, which call it on templates. -/
abbrev FormatBody := Body Text (Except FormatError Text) (Except FormatError Text)

/-- A placeholder is written with a nested call where a choice selects for a number. -/
def formatPlaceholderBody (tag : LocaleTag) (args : List Argument) (p : Placeholder) :
    FormatBody :=
  match p.format, Argument.at? args p.index with
  | some ⟨.choice, _⟩, .number n =>
    match Choice.parse (choicePattern p) with
    | .error e => .done (.error e)
    | .ok choice => .call (choice.select n.toFloat) .done
  -- no other placeholder formats another template
  | _, _ => .done (formatPlaceholder tag args _ (fun _ _ => .ok []) p (Nat.le_refl _))

/-- Segments are written in order, as long as none fails. -/
def formatSegmentsBody (tag : LocaleTag) (args : List Argument) :
    List Segment → FormatBody
  | [] => .done (.ok [])
  | .literal t :: rest =>
    (formatSegmentsBody tag args rest).andThen fun others => .done (.ok (t ++ others))
  | .placeholder p :: rest =>
    (formatPlaceholderBody tag args p).andThen fun text =>
      (formatSegmentsBody tag args rest).andThen fun others => .done (.ok (text ++ others))

/-- The body of formatting. -/
def formatBody (tag : LocaleTag) (args : List Argument) (template : Text) : FormatBody :=
  match Template.parse template with
  | .error e => .done (.error (.template e))
  | .ok t => formatSegmentsBody tag args t.segments

section

variable {tag : LocaleTag} {args : List Argument} {bound : Nat}

theorem run_formatPlaceholderBody (f : Text → Except FormatError Text) (p : Placeholder)
    (hp : (choicePattern p).length ≤ bound) :
    (formatPlaceholderBody tag args p).run f =
      formatPlaceholder tag args bound (fun inner _ => f inner) p hp := by
  obtain ⟨index, format⟩ := p
  match format with
  | none => rfl
  | some ⟨.number, style⟩ => rfl
  | some ⟨.date, style⟩ => rfl
  | some ⟨.time, style⟩ => rfl
  | some ⟨.choice, style⟩ =>
    unfold formatPlaceholderBody formatPlaceholder formatArgument
    cases harg : Argument.at? args index with
    | missing => rfl
    | text t => rfl
    | date d => rfl
    | number n =>
      dsimp only
      rw [if_neg (show ¬ (Argument.number n).isMissing = true from Bool.false_ne_true)]
      split
      · rename_i e hparse
        split <;> rename_i hparse' <;> cases hparse.symm.trans hparse'
        rfl
      · rename_i choice hparse
        split <;> rename_i hparse' <;> cases hparse.symm.trans hparse'
        rfl

theorem run_formatSegmentsBody (f : Text → Except FormatError Text) (segments : List Segment)
    (h : ∀ p ∈ Segment.placeholders segments, (choicePattern p).length ≤ bound) :
    (formatSegmentsBody tag args segments).run f =
      formatSegments tag args bound (fun inner _ => f inner) segments h := by
  induction segments with
  | nil => rfl
  | cons segment rest ih =>
    cases segment with
    | literal t =>
      rw [formatSegmentsBody, formatSegments, Body.run_andThen, ih (bound_of_literal h)]
      rfl
    | placeholder p =>
      rw [formatSegmentsBody, formatSegments, Body.run_andThen,
        run_formatPlaceholderBody f p (bound_of_placeholder h)]
      refine congrArg (_ >>= ·) (funext fun text => ?_)
      rw [Body.run_andThen, ih (bound_of_tail h)]
      rfl

/-- **Formatting is the procedure with this body.** -/
theorem run_formatBody (tag : LocaleTag) (args : List Argument) (template : Text) :
    (formatBody tag args template).run (format tag args) = format tag args template := by
  unfold formatBody
  split
  · rename_i e hparse
    rw [format]
    split <;> rename_i hparse' <;> cases hparse.symm.trans hparse'
    rfl
  · rename_i t hparse
    rw [format_of_parse hparse]
    exact run_formatSegmentsBody _ _ _

theorem callsOnly_formatPlaceholderBody {P : Text → Prop} {p : Placeholder}
    (h : AllAlternatives P p) :
    (formatPlaceholderBody tag args p).CallsOnly P := by
  unfold formatPlaceholderBody
  split
  · split
    · trivial
    · rename_i n _ _ _ choice hparse
      have hne := Choice.alternatives_ne_nil (Choice.parse?_of_parse hparse)
      obtain ⟨a, ha, hselect⟩ := Choice.exists_select hne n.toFloat
      rw [hselect]
      exact ⟨h choice hparse a ha, fun _ => trivial⟩
  · trivial

theorem callsOnly_formatSegmentsBody {P : Text → Prop} {segments : List Segment}
    (h : ∀ p ∈ Segment.placeholders segments, AllAlternatives P p) :
    (formatSegmentsBody tag args segments).CallsOnly P := by
  induction segments with
  | nil => trivial
  | cons segment rest ih =>
    cases segment with
    | literal t => exact (ih h).andThen fun others => trivial
    | placeholder p =>
      have hrest := ih fun q hq => h q (List.mem_cons_of_mem _ hq)
      exact (callsOnly_formatPlaceholderBody (h p List.mem_cons_self)).andThen fun text =>
        hrest.andThen fun others => trivial

/-- Formatting calls itself on proper parts of the template only. -/
theorem callsOnly_formatBody (tag : LocaleTag) (args : List Argument) (template : Text) :
    (formatBody tag args template).CallsOnly (ProperPart · template) := by
  unfold formatBody
  cases hparse : Template.parse template with
  | error e => trivial
  | ok t =>
    exact callsOnly_formatSegmentsBody fun p hp => properPart_of_alternative hparse hp

end

/-! ## Section 4: Reading -/

/-- The bodies of reading, which call it on templates with texts. -/
abbrev ReadBody :=
  Body (Text × Text) (Except FormatError (List Argument)) (Except FormatError (List Argument))

/-- A choice reads its text along one alternative after the other, until one of them fits. -/
def readChoiceBody (text captured : Text) (index : Nat) (args : List Argument) :
    List Alternative → ReadBody
  | [] => .done (readChoice text captured index 0 (fun _ _ _ => .ok []) args [] nofun)
  | a :: rest => .call (a.text, captured) fun
    | .error _ => readChoiceBody text captured index args rest
    | .ok found => .done do
      let (value, args) ← mergeAlternative text index 0 (.number (limitNumber a.limit)) found args
      store text args index value

/-- A placeholder is read with nested calls where it is a choice. -/
def readPlaceholderBody (setting : Setting) (text : Text) (p : Placeholder) (captured : Text)
    (args : List Argument) : ReadBody :=
  match p.format with
  | some ⟨.choice, _⟩ =>
    match Choice.parse (choicePattern p) with
    | .error e => .done (.error e)
    | .ok choice => readChoiceBody text captured p.index args choice.alternatives
  -- no other placeholder reads along another template
  | _ => .done
    (readPlaceholder setting text _ (fun _ _ _ => .ok []) p (Nat.le_refl _) captured args)

/-- Segments are read in order, as long as none fails. -/
def readSegmentsBody (setting : Setting) (text : Text) :
    List Segment → (rest : Text) → (args : List Argument) → ReadBody
  | [], rest, args =>
    .done (readSegments setting text 0 (fun _ _ _ => .ok []) [] nofun rest args)
  | .literal t :: segments, rest, args =>
    match stripPrefix? t rest with
    | some rest => readSegmentsBody setting text segments rest args
    | none => .done (.error (expected text t))
  | .placeholder p :: segments, rest, args =>
    match capture text p rest segments with
    | .error e => .done (.error e)
    | .ok (captured, rest) =>
      (readPlaceholderBody setting text p captured args).andThen fun args =>
        readSegmentsBody setting text segments rest args

/-- The body of reading, on a template and a text. -/
def readBody (setting : Setting) (input : Text × Text) : ReadBody :=
  match Template.parse input.1 with
  | .error e => .done (.error (.template e))
  | .ok t => readSegmentsBody setting input.2 t.segments input.2 []

section

variable {setting : Setting} {text : Text} {bound : Nat} {P : Text → Prop}

theorem run_readChoiceBody (f : Text × Text → Except FormatError (List Argument)) (captured : Text)
    (index : Nat) (args : List Argument) (alternatives : List Alternative)
    (h : ∀ a ∈ alternatives, a.text.length < bound) :
    (readChoiceBody text captured index args alternatives).run f =
      readChoice text captured index bound (fun inner _ text => f (inner, text)) args
        alternatives h := by
  induction alternatives with
  | nil => rfl
  | cons a rest ih =>
    -- both sides ask for the first alternative and go on with the others only if it does not fit
    rw [readChoiceBody, readChoice, Body.run]
    cases f (a.text, captured) with
    | error e => exact ih _
    | ok found => rfl

theorem run_readPlaceholderBody (f : Text × Text → Except FormatError (List Argument))
    (p : Placeholder) (hp : (choicePattern p).length ≤ bound) (captured : Text)
    (args : List Argument) :
    (readPlaceholderBody setting text p captured args).run f =
      readPlaceholder setting text bound (fun inner _ text => f (inner, text)) p hp captured
        args := by
  obtain ⟨index, format⟩ := p
  match format with
  | none => rfl
  | some ⟨.number, style⟩ => rfl
  | some ⟨.date, style⟩ => rfl
  | some ⟨.time, style⟩ => rfl
  | some ⟨.choice, style⟩ =>
    simp only [readPlaceholderBody, readPlaceholder]
    split
    · rename_i e hparse
      split <;> rename_i hparse' <;> cases hparse.symm.trans hparse'
      rfl
    · rename_i choice hparse
      split <;> rename_i hparse' <;> cases hparse.symm.trans hparse'
      exact run_readChoiceBody f captured index args choice.alternatives _

theorem run_readSegmentsBody (f : Text × Text → Except FormatError (List Argument))
    (segments : List Segment)
    (h : ∀ p ∈ Segment.placeholders segments, (choicePattern p).length ≤ bound) (rest : Text)
    (args : List Argument) :
    (readSegmentsBody setting text segments rest args).run f =
      readSegments setting text bound (fun inner _ text => f (inner, text)) segments h rest
        args := by
  induction segments generalizing rest args with
  | nil => rfl
  | cons segment segments ih =>
    cases segment with
    | literal t =>
      rw [readSegmentsBody, readSegments]
      cases stripPrefix? t rest with
      | none => rfl
      | some rest => exact ih (bound_of_literal h) rest args
    | placeholder p =>
      rw [readSegmentsBody, readSegments]
      cases capture text p rest segments with
      | error e => rfl
      | ok cut =>
        refine (Body.run_andThen _ _).trans ?_
        rw [run_readPlaceholderBody f p (bound_of_placeholder h)]
        exact congrArg (_ >>= ·) (funext fun args => ih (bound_of_tail h) cut.2 args)

/-- **Reading is the procedure with this body.** -/
theorem run_readBody (setting : Setting) (input : Text × Text) :
    (readBody setting input).run (fun call => read setting call.1 call.2) =
      read setting input.1 input.2 := by
  unfold readBody
  split
  · rename_i e hparse
    rw [read]
    split <;> rename_i hparse' <;> cases hparse.symm.trans hparse'
    rfl
  · rename_i t hparse
    rw [read_of_parse hparse]
    exact run_readSegmentsBody _ _ _ _ _

theorem callsOnly_readChoiceBody (captured : Text) (index : Nat) (args : List Argument)
    {alternatives : List Alternative} (h : ∀ a ∈ alternatives, P a.text) :
    (readChoiceBody text captured index args alternatives).CallsOnly fun call => P call.1 := by
  induction alternatives with
  | nil => trivial
  | cons a rest ih =>
    refine ⟨h a List.mem_cons_self, fun answer => ?_⟩
    cases answer with
    | error e => exact ih fun b hb => h b (List.mem_cons_of_mem _ hb)
    | ok found => trivial

theorem callsOnly_readPlaceholderBody {p : Placeholder} (captured : Text) (args : List Argument)
    (h : AllAlternatives P p) :
    (readPlaceholderBody setting text p captured args).CallsOnly fun call => P call.1 := by
  unfold readPlaceholderBody
  split
  · split
    · trivial
    · rename_i choice hparse
      exact callsOnly_readChoiceBody captured p.index args (h choice hparse)
  · trivial

theorem callsOnly_readSegmentsBody {segments : List Segment} (rest : Text) (args : List Argument)
    (h : ∀ p ∈ Segment.placeholders segments, AllAlternatives P p) :
    (readSegmentsBody setting text segments rest args).CallsOnly fun call => P call.1 := by
  induction segments generalizing rest args with
  | nil => trivial
  | cons segment segments ih =>
    cases segment with
    | literal t =>
      unfold readSegmentsBody
      split
      · exact ih _ args h
      · trivial
    | placeholder p =>
      unfold readSegmentsBody
      split
      · trivial
      · rename_i captured rest' _
        exact (callsOnly_readPlaceholderBody captured args (h p List.mem_cons_self)).andThen
          fun args => ih rest' args fun q hq => h q (List.mem_cons_of_mem _ hq)

/-- Reading calls itself on proper parts of the template only. -/
theorem callsOnly_readBody (setting : Setting) (input : Text × Text) :
    (readBody setting input).CallsOnly fun call => ProperPart call.1 input.1 := by
  unfold readBody
  cases hparse : Template.parse input.1 with
  | error e => trivial
  | ok t =>
    exact callsOnly_readSegmentsBody (P := (ProperPart · input.1)) _ _ fun p hp =>
      properPart_of_alternative hparse hp

end

/-! ## Section 5: Depth -/

/-- **Messages nest no deeper than the template is long.** Formatting and reading call themselves on
proper parts of the template only. So no more calls are ever open in one another than the template
has characters, and a limit on them that is no lower changes nothing: the run ends without a call
that is refused, and gives what it gives without a limit. -/
theorem nesting_descends (tag : LocaleTag) (args : List Argument) (setting : Setting)
    (template text : Text) :
    ((∀ inner ∈ (formatBody tag args template).calls (format tag args),
        ProperPart inner template) ∧
      Body.Descends (formatBody tag args) (format tag args) List.length template) ∧
    (∀ call ∈ (readBody setting (template, text)).calls fun call => read setting call.1 call.2,
        ProperPart call.1 template) ∧
      Body.Descends (readBody setting) (fun call => read setting call.1 call.2)
        (fun call => call.1.length) (template, text) := by
  have hformat : ∀ outer, ∀ inner ∈ (formatBody tag args outer).calls (format tag args),
      ProperPart inner outer :=
    fun outer _ hinner => (callsOnly_formatBody tag args outer).of_mem_calls hinner
  have hread : ∀ outer, ∀ call ∈ (readBody setting outer).calls fun call =>
      read setting call.1 call.2, ProperPart call.1 outer.1 :=
    fun outer _ hcall => (callsOnly_readBody setting outer).of_mem_calls hcall
  refine ⟨⟨hformat template, ?_⟩, hread (template, text), ?_⟩
  · exact Body.descends (run_formatBody tag args)
      (fun outer inner hinner => (hformat outer inner hinner).2) template
  · exact Body.descends (run_readBody setting)
      (fun outer call hcall => (hread outer call hcall).2) (template, text)

/-- A choice in a choice: formatting seven asks for one alternative, which asks for another one. A
limit of one call refuses the second. -/
example :
    let template : Text := "\x7b0,choice,0#none|1<\x7b0,choice,1#a|5<\x7b0\x7d b\x7d\x7d".toList
    let tag : LocaleTag := ⟨"en".toList, none, none, []⟩
    let args : List Argument := [.number (.int 7)]
    (formatBody tag args template).calls (format tag args) =
        ["\x7b0,choice,1#a|5<\x7b0\x7d b\x7d".toList] ∧
      Body.runWithin (formatBody tag args) 1 template = none ∧
      Body.runWithin (formatBody tag args) 2 template = some (.ok "7 b".toList) := by
  decide +kernel

end Message

end MessageCatalog
