import MessageCatalog.Proofs.AccessorNames
import MessageCatalog.Proofs.QuotedTexts
import MessageCatalog.Text.Lines

/-!
# Texts in generated source

Keys, templates and names of bundles hold any characters, and they stand in the generated source.
Each line of the source is therefore read as code around quoted texts: names, paths and numbers are
code, everything else that depends on the bundle is quoted. So the literals of the source are known,
and the number of its lines follows from its shape and the sizes of its accessors.

## Main statements

* `LinesEmbed.literals?_eq`, `LinesEmbed.lines_eq` : the literals and the lines of such code
* `embeds_accessorLines`, `embeds_sourceLines` : the texts in an accessor and in a source
* `length_sourceLines` : the number of lines of a source
* `literals_of_generate` : all of it, for every source that is generated
-/

namespace MessageCatalog.Accessor

open Text

/-! ## Section 1: Lines of code -/

/-- Lines of code in which some texts are quoted, in this order. -/
inductive LinesEmbed : List String → List Text → Prop where
  | nil : LinesEmbed [] []
  | cons {line : String} {lines : List String} {texts texts' : List Text} :
      Embeds line.toList texts → LinesEmbed lines texts' →
        LinesEmbed (line :: lines) (texts ++ texts')

namespace LinesEmbed

variable {lines lines' : List String} {texts texts' : List Text}

theorem code {line : String} (h : isCode line = true) (hlines : LinesEmbed lines texts) :
    LinesEmbed (line :: lines) texts :=
  .cons (Embeds.of_isCode h) hlines

theorem quoted {before after : String} (hbefore : isCode before = true)
    (hafter : isCode after = true) (t : Text) (hlines : LinesEmbed lines texts) :
    LinesEmbed ((before ++ t.quoted ++ after) :: lines) (t :: texts) :=
  .cons (Embeds.between before after hbefore hafter t) hlines

theorem of_isCode (h : lines.all isCode = true) : LinesEmbed lines [] := by
  induction lines with
  | nil => exact .nil
  | cons line lines ih =>
    rw [List.all_cons, Bool.and_eq_true] at h
    exact .code h.1 (ih h.2)

theorem append (h : LinesEmbed lines texts) (h' : LinesEmbed lines' texts') :
    LinesEmbed (lines ++ lines') (texts ++ texts') := by
  induction h with
  | nil => exact h'
  | cons hline _ ih =>
    rw [List.append_assoc]
    exact .cons hline ih

theorem flatMap {α : Type} {f : α → List String} {g : α → List Text} {l : List α}
    (h : ∀ a ∈ l, LinesEmbed (f a) (g a)) : LinesEmbed (l.flatMap f) (l.flatMap g) := by
  induction l with
  | nil => exact .nil
  | cons a l ih =>
    obtain ⟨ha, hl⟩ := List.forall_mem_cons.mp h
    rw [List.flatMap_cons, List.flatMap_cons]
    exact ha.append (ih hl)

/-- Lines without texts are put after other lines. -/
theorem append_code (h : LinesEmbed lines texts) (h' : LinesEmbed lines' []) :
    LinesEmbed (lines ++ lines') texts := by
  simpa using h.append h'

theorem flatMap_nil {α : Type} {f : α → List String} {l : List α}
    (h : ∀ a ∈ l, LinesEmbed (f a) []) : LinesEmbed (l.flatMap f) [] := by
  have hnone : (l.flatMap fun _ => ([] : List Text)) = [] := by simp
  exact hnone ▸ flatMap h

theorem map {α : Type} {f : α → String} {g : α → List Text} {l : List α}
    (h : ∀ a ∈ l, Embeds (f a).toList (g a)) : LinesEmbed (l.map f) (l.flatMap g) := by
  induction l with
  | nil => exact .nil
  | cons a l ih =>
    obtain ⟨ha, hl⟩ := List.forall_mem_cons.mp h
    exact .cons ha (ih hl)

theorem indent (h : LinesEmbed lines texts) : LinesEmbed (indent lines) texts := by
  induction h with
  | nil => exact .nil
  | @cons line lines texts texts' hline _ ih =>
    refine .cons ?_ ih
    simp only []
    split
    · exact hline
    · have hspaces : Embeds "    ".toList [] := Embeds.of_isCode (isCode_ofList (by decide))
      rw [String.toList_append]
      exact hspaces.append hline

theorem block {head : String} (hhead : isCode head = true) (h : LinesEmbed lines texts) :
    LinesEmbed (block head lines) texts := by
  have hopening : isCode (opening head) = true := by
    rw [opening, isCode_append, hhead, Bool.true_and]
    exact isCode_ofList (by decide)
  have hclosing : LinesEmbed [closing] [] := .code (isCode_ofList (by decide)) .nil
  rw [← List.append_nil texts]
  exact LinesEmbed.append (.code hopening h.indent) hclosing

theorem listConstant {α : Type} {f : α → String} {g : α → List Text} {l : List α} {head : String}
    (hhead : isCode head = true) (h : ∀ a ∈ l, Embeds (f a).toList (g a)) :
    LinesEmbed (listConstant head (l.map f)) (l.flatMap g) := by
  have hopening : isCode s!"{head} = &[" = true := by
    simp only [toString, isCode_append, hhead, Bool.true_and]
    exact isCode_ofList (by decide)
  have hitems : LinesEmbed ((l.map f).map (· ++ ",")) (l.flatMap g) := by
    rw [List.map_map]
    refine map fun a ha => ?_
    have hcomma : Embeds ",".toList [] := Embeds.of_isCode (isCode_ofList (by decide))
    rw [Function.comp_apply, String.toList_append, ← List.append_nil (g a)]
    exact (h a ha).append hcomma
  have hclosing : LinesEmbed ["];"] [] := .code (isCode_ofList (by decide)) .nil
  rw [← List.append_nil (l.flatMap g)]
  exact LinesEmbed.append (.code hopening hitems.indent) hclosing

/-- **The literals of a source** are the texts that were written into its lines. -/
theorem literals?_eq (h : LinesEmbed lines texts) :
    literals? (lines.flatMap fun line => line.toList ++ ['\n']) = some (texts.map quote) := by
  induction h with
  | nil => rw [List.flatMap_nil, literals?, List.map_nil]
  | cons hline _ ih =>
    rw [List.flatMap_cons, List.append_assoc, literals?_append hline, List.singleton_append,
      literals?_cons (by decide), ih, Option.map_some, List.map_append]

/-- The lines of a source are those that were written. -/
theorem lines_eq (h : LinesEmbed lines texts) :
    Text.lines (lines.flatMap fun line => line.toList ++ ['\n']) = lines.map String.toList := by
  induction h with
  | nil => rfl
  | cons hline _ ih =>
    rw [List.flatMap_cons, List.append_assoc, List.singleton_append,
      lines_append _ (fun hmem => absurd (hline.isLineBreak_eq_false hmem) (by decide))
        (fun hmem => absurd (hline.isLineBreak_eq_false hmem) (by decide)), ih, List.map_cons]

end LinesEmbed

/-! ## Section 2: Code that depends on a bundle -/

theorem isCodeChar_of_isWordChar {c : Char} (h : isWordChar c = true) : isCodeChar c = true := by
  have hplain : ['"', '\n', '\r'].any isWordChar = false := by decide
  by_contra hcode
  have hmem : c ∈ ['"', '\n', '\r'] := by
    by_contra hmem
    simp only [List.mem_cons, List.not_mem_nil, or_false, not_or] at hmem
    exact hcode (by simp [isCodeChar, isLineBreak, hmem])
  exact Bool.false_ne_true (hplain.symm.trans (List.any_eq_true.mpr ⟨c, hmem, h⟩))

theorem isCode_of_isIdentifier {name : Text} (h : isIdentifier name = true) :
    isCode name.str = true :=
  isCode_ofList (List.all_eq_true.mpr fun _ hc =>
    isCodeChar_of_isWordChar (isWordChar_of_mem_identifier h hc))

/-- Nothing but colons is lost when a path is taken apart. -/
theorem mem_splitPath {path : Text} {c : Char} (hc : c ∈ path) (hcolon : c ≠ ':') :
    ∃ part ∈ splitPath path, c ∈ part := by
  fun_induction splitPath path with
  | case1 => simp at hc
  | case2 cs ih =>
    simp only [List.mem_cons, hcolon, false_or] at hc
    obtain ⟨part, hpart, hmem⟩ := ih hc
    exact ⟨part, List.mem_cons_of_mem _ hpart, hmem⟩
  | case3 d cs _ ih =>
    cases hparts : splitPath cs with
    | nil =>
      rcases List.mem_cons.mp hc with rfl | hc
      · exact ⟨[c], by simp [consFirst], by simp⟩
      · obtain ⟨part, hpart, -⟩ := ih hc
        simp [hparts] at hpart
    | cons first others =>
      rcases List.mem_cons.mp hc with rfl | hc
      · exact ⟨c :: first, by simp [consFirst], by simp⟩
      · obtain ⟨part, hpart, hmem⟩ := ih hc
        rcases List.mem_cons.mp (hparts ▸ hpart) with rfl | hpart
        · exact ⟨d :: part, by simp [consFirst], List.mem_cons_of_mem _ hmem⟩
        · exact ⟨part, by simp [consFirst, hpart], hmem⟩

theorem isCode_of_isPath {path : Text} (h : isPath path = true) : isCode path.str = true := by
  simp only [isPath, Bool.and_eq_true, List.all_eq_true] at h
  obtain ⟨-, hparts⟩ := h
  have hrest : ∀ c ∈ (stripPrefix? [':', ':'] path).getD path, isCodeChar c = true := by
    intro c hc
    by_cases hcolon : c = ':'
    · rw [hcolon]
      decide
    · obtain ⟨part, hpart, hmem⟩ := mem_splitPath hc hcolon
      exact isCodeChar_of_isWordChar (isWordChar_of_mem_identifier (hparts part hpart).1 hmem)
  refine isCode_ofList (List.all_eq_true.mpr fun c hc => ?_)
  cases hstrip : stripPrefix? [':', ':'] path with
  | none => exact hrest c (by simpa [hstrip] using hc)
  | some rest =>
    rw [stripPrefix?_eq_some_iff.mp hstrip] at hc
    rcases List.mem_append.mp hc with hc | hc
    · have hcolons : [':', ':'].all isCodeChar = true := by decide
      exact List.all_eq_true.mp hcolons c hc
    · exact hrest c (by simpa [hstrip] using hc)

theorem isCode_repr (n : Nat) : isCode n.repr = true := by
  rw [Nat.repr_eq_ofList_toDigits]
  refine isCode_ofList (List.all_eq_true.mpr fun c hc => isCodeChar_of_isWordChar ?_)
  have hdigit : c.isDigit = true := Nat.isDigit_of_mem_toDigits (by decide) (by decide) hc
  simp [isWordChar, Char.isAlphanum, hdigit]

theorem isCode_name (type : ArgType) : isCode type.name = true := by
  cases type <;> exact isCode_ofList (by decide)

theorem isCode_intercalate {separator : String} {pieces : List String}
    (hseparator : isCode separator = true) (h : ∀ piece ∈ pieces, isCode piece = true) :
    isCode (separator.intercalate pieces) = true := by
  induction pieces with
  | nil =>
    rw [String.intercalate_nil]
    exact isCode_ofList (by decide)
  | cons piece pieces ih =>
    obtain ⟨hpiece, hpieces⟩ := List.forall_mem_cons.mp h
    cases pieces with
    | nil => rwa [String.intercalate_singleton]
    | cons next pieces =>
      rw [String.intercalate_cons_cons, isCode_append, isCode_append, hpiece, hseparator,
        ih hpieces]
      rfl

theorem isCode_render (signature : Signature) : isCode signature.render = true := by
  have htypes : isCode (", ".intercalate (signature.types.map ArgType.name)) = true := by
    refine isCode_intercalate (isCode_ofList (by decide)) fun piece hpiece => ?_
    obtain ⟨type, -, rfl⟩ := List.mem_map.mp hpiece
    exact isCode_name type
  have hopening : isCode "[" = true := isCode_ofList (by decide)
  have hclosing : isCode "]" = true := isCode_ofList (by decide)
  rw [Signature.render, isCode_append, isCode_append, hopening, htypes, hclosing]
  rfl

/-! ## Section 3: Accessors -/

/-- The documentation of the constant of an accessor. -/
def Plan.summary (plan : Plan) : Text := '`' :: plan.key ++ "`: ".toList ++ plan.mainTemplate

/-- The documentation of the type of an accessor. -/
def Plan.detail (plan : Plan) : Text := "Accessor for key `".toList ++ plan.fullKey ++ "`.".toList

/-- The texts of a bundle that its accessor embeds. -/
def Plan.texts (plan : Plan) : List Text :=
  [plan.summary, plan.detail, plan.fullKey, plan.key] ++
    plan.templates.flatMap fun (tag, template) => [tag, template]

/-- A setter embeds no text. -/
theorem embeds_setterLines {runtime : String} (hruntime : isCode runtime = true) (index : Nat)
    (type : ArgType) : LinesEmbed (setterLines runtime index type) [] := by
  have htypes : isCode (setterTypes runtime type).1 = true ∧
      isCode (setterTypes runtime type).2 = true := by
    cases type <;> simp only [setterTypes, toString, isCode_append, hruntime, Bool.true_and] <;>
      exact ⟨isCode_ofList (by decide), isCode_ofList (by decide)⟩
  unfold setterLines
  generalize setterTypes runtime type = types at htypes
  obtain ⟨parameter, value⟩ := types
  obtain ⟨hparameter, hvalue⟩ : isCode parameter = true ∧ isCode value = true := htypes
  refine .append_code (.code ?_ (.block ?_ (.of_isCode ?_))) (.of_isCode ?_)
  all_goals
    simp only [List.all_cons, List.all_nil, toString, isCode_append, hparameter, hvalue,
      isCode_repr, isCode_name, Bool.and_true, Bool.and_eq_true]
    and_intros <;> exact isCode_ofList (by decide)

/-- The method that reads a message back embeds no text. -/
theorem embeds_readerLines {runtime typeName : String} (hruntime : isCode runtime = true)
    (htype : isCode typeName = true) (arity : Nat) :
    LinesEmbed (readerLines runtime typeName arity) [] := by
  refine .append_code (.append_code (.of_isCode ?_) (.indent (.of_isCode ?_)))
    (.block ?_ (.of_isCode ?_))
  all_goals
    simp only [List.all_cons, List.all_nil, toString, isCode_append, hruntime, htype, isCode_repr,
      Bool.and_true, Bool.and_eq_true]
    and_intros <;> exact isCode_ofList (by decide)

theorem isCode_formatterHead {runtime : String} (hruntime : isCode runtime = true) :
    isCode (formatterHead runtime) = true := by
  delta formatterHead
  simp only [toString, isCode_append, hruntime, Bool.and_true, Bool.and_eq_true]
  and_intros <;> exact isCode_ofList (by decide)

/-- The direct formatter embeds no text. -/
theorem embeds_directLines {runtime : String} (hruntime : isCode runtime = true) :
    LinesEmbed (directLines runtime) [] := by
  refine .append_code (.of_isCode ?_) (.block (isCode_formatterHead hruntime) (.of_isCode ?_))
  all_goals
    simp only [List.all_cons, List.all_nil, Bool.and_true, Bool.and_eq_true]
    and_intros <;> exact isCode_ofList (by decide)

/-- **An accessor embeds its texts** and no others. -/
theorem embeds_accessorLines {runtime : String} (hruntime : isCode runtime = true) {plan : Plan}
    (hnames : ∀ name ∈ plan.names, isIdentifier name = true) :
    LinesEmbed (accessorLines runtime plan) plan.texts := by
  simp only [Plan.names, List.forall_mem_cons] at hnames
  obtain ⟨hconstantName, htypeName, hbuilderName, -⟩ := hnames
  have hconstant := isCode_of_isIdentifier hconstantName
  have htype := isCode_of_isIdentifier htypeName
  have hbuilder := isCode_of_isIdentifier hbuilderName
  have hdirect : LinesEmbed (if plan.signature.size = 0 then directLines runtime else []) [] := by
    split
    · exact embeds_directLines hruntime
    · exact .nil
  have hsetters : LinesEmbed (plan.signature.types.zipIdx.flatMap fun entry =>
      setterLines runtime entry.2 entry.1) [] := by
    refine .flatMap_nil fun entry _ => ?_
    exact embeds_setterLines hruntime entry.2 entry.1
  have htemplates : LinesEmbed
      (listConstant "pub const TEMPLATES: &'static [(&'static str, &'static str)]"
        (plan.templates.map fun (tag, template) => s!"({tag.quoted}, {template.quoted})"))
      (plan.templates.flatMap fun (tag, template) => [tag, template]) := by
    refine .listConstant (isCode_ofList (by decide)) fun entry _ => ?_
    obtain ⟨tag, template⟩ := entry
    have htag := Embeds.between "(" ", " (isCode_ofList (by decide)) (isCode_ofList (by decide)) tag
    have htemplate :=
      Embeds.between "" ")" (isCode_ofList (by decide)) (isCode_ofList (by decide)) template
    simpa [toString, String.toList_append] using htag.append htemplate
  -- texts stand before the type and in its constants, all else is code
  show LinesEmbed _ ([plan.summary, plan.detail] ++ ([plan.fullKey, plan.key] ++
    plan.templates.flatMap fun (tag, template) => [tag, template]))
  refine .append_code (.append_code (.append_code (.append_code (.append ?head (.block ?_ ?body))
    (.of_isCode ?_)) (.block ?_ (.of_isCode ?_))) (.of_isCode ?_))
    (.block ?_ (.append_code (.append_code hsetters (.of_isCode ?_))
      (.block (isCode_formatterHead hruntime) (.of_isCode ?_))))
  case head =>
    refine .quoted (isCode_ofList (by decide)) (isCode_ofList (by decide)) _ (.code ?_
      (.code (isCode_ofList (by decide)) (.quoted (isCode_ofList (by decide))
      (isCode_ofList (by decide)) _ (.of_isCode ?_))))
    all_goals
      simp only [List.all_cons, List.all_nil, toString, isCode_append, hconstant, htype,
        isCode_render, Bool.and_true, Bool.and_eq_true]
      and_intros <;> exact isCode_ofList (by decide)
  case body =>
    refine .append_code (.append_code (.append_code (.append_code (.append_code
      (.append ?constants htemplates) (.of_isCode ?_))
      (.block ?_ (.block hbuilder (.of_isCode ?_)))) hdirect) (.of_isCode ?_))
      (embeds_readerLines hruntime htype _)
    case constants =>
      exact .code (isCode_ofList (by decide)) (.quoted (isCode_ofList (by decide))
        (isCode_ofList (by decide)) _ (.code (isCode_ofList (by decide))
        (.quoted (isCode_ofList (by decide)) (isCode_ofList (by decide)) _
        (.code (isCode_ofList (by decide)) .nil))))
    all_goals
      simp only [List.all_cons, List.all_nil, toString, isCode_append, hbuilder, hruntime,
        isCode_repr, Bool.and_true, Bool.and_eq_true]
      and_intros <;> exact isCode_ofList (by decide)
  all_goals
    simp only [List.all_cons, List.all_nil, toString, isCode_append, hbuilder, htype, hruntime,
      Bool.and_true, Bool.true_and, Bool.and_eq_true]
    and_intros <;> exact isCode_ofList (by decide)

/-! ## Section 4: The whole source -/

/-- The documentation of the module of a bundle. -/
def bundleSummary (specs : MessageSpecs) : Text :=
  "Typed accessors for message bundle `".toList ++ specs.bundleName ++ "`.".toList

/-- The texts that the constants of a bundle and its accessors embed. -/
def itemTexts (specs : MessageSpecs) (plans : List Plan) : List Text :=
  specs.mainLocale.text :: specs.locales.map LocaleTag.text ++ plans.map Plan.key ++
    plans.flatMap Plan.texts

/-- The texts that a source embeds. -/
def sourceTexts (specs : MessageSpecs) (plans : List Plan) (options : Options) : List Text :=
  specs.bundleName ::
    match options.shape with
    | .flat => itemTexts specs plans
    | .namespaced => bundleSummary specs :: itemTexts specs plans

/-- A list constant embeds the texts in it. -/
theorem embeds_textList {α : Type} {head : String} (hhead : isCode head = true) (f : α → Text)
    (l : List α) : LinesEmbed (listConstant head (l.map fun a => (f a).quoted)) (l.map f) := by
  have hflat : (l.flatMap fun a => [f a]) = l.map f := List.map_eq_flatMap.symm
  rw [← hflat]
  refine .listConstant hhead fun a _ => ?_
  have h := Embeds.between "" "" (isCode_ofList (by decide)) (isCode_ofList (by decide)) (f a)
  simpa using h

/-- The constants of a bundle embed its locales and its keys. -/
theorem embeds_bundleLines (specs : MessageSpecs) (plans : List Plan) :
    LinesEmbed (bundleLines specs plans)
      (specs.mainLocale.text :: specs.locales.map LocaleTag.text ++ plans.map Plan.key) := by
  show LinesEmbed _ ([specs.mainLocale.text] ++ specs.locales.map LocaleTag.text ++
    plans.map Plan.key)
  refine .append (.append_code (.append ?main
    (embeds_textList (isCode_ofList (by decide)) _ _)) (.of_isCode ?_))
    (embeds_textList (isCode_ofList (by decide)) _ _)
  case main =>
    exact .code (isCode_ofList (by decide)) (.quoted (isCode_ofList (by decide))
      (isCode_ofList (by decide)) _ (.code (isCode_ofList (by decide))
      (.code (isCode_ofList (by decide)) .nil)))
  simp only [List.all_cons, List.all_nil, Bool.and_true, Bool.and_eq_true]
  and_intros <;> exact isCode_ofList (by decide)

theorem embeds_itemLines (specs : MessageSpecs) {options : Options}
    (hruntime : isCode options.runtimePath.str = true) :
    LinesEmbed (itemLines specs (planAll specs).1 options) (itemTexts specs (planAll specs).1) := by
  refine .append (embeds_bundleLines specs _) (.flatMap fun plan hplan => ?_)
  refine .code (isCode_ofList (by decide)) (embeds_accessorLines hruntime fun name hname => ?_)
  have hmem : name ∈ moduleNames (planAll specs).1 :=
    List.mem_append_right _ (List.mem_flatMap.mpr ⟨plan, hplan, hname⟩)
  exact (Bool.and_eq_true_iff.mp (isModuleName_of_mem_moduleNames hmem)).1

/-- What checked options put into a source is code. -/
theorem isCode_of_check {options : Options} (h : options.check = .ok ()) :
    isCode options.runtimePath.str = true ∧
      (options.shape = .namespaced → isCode options.moduleName.str = true) := by
  unfold Options.check at h
  split at h
  · exact absurd h (by simp)
  rename_i hpath
  split at h
  · exact absurd h (by simp)
  rename_i hmodule
  refine ⟨isCode_of_isPath (by simpa using hpath), fun hshape => isCode_of_isIdentifier ?_⟩
  have hname : isModuleName options.moduleName = true := by simpa [hshape] using hmodule
  exact (Bool.and_eq_true_iff.mp hname).1

/-- **A source embeds its texts** and no others. -/
theorem embeds_sourceLines (specs : MessageSpecs) {options : Options}
    (h : options.check = .ok ()) :
    LinesEmbed (sourceLines specs (planAll specs).1 options)
      (sourceTexts specs (planAll specs).1 options) := by
  obtain ⟨hruntime, hmodule⟩ := isCode_of_check h
  have hitems := embeds_itemLines specs hruntime
  unfold sourceLines sourceTexts
  show LinesEmbed _ ([specs.bundleName] ++ _)
  refine .append (.quoted (isCode_ofList (by decide)) (isCode_ofList (by decide)) _
    (.code (isCode_ofList (by decide)) .nil)) ?_
  cases hshape : options.shape with
  | flat => exact hitems
  | namespaced =>
    refine .quoted (isCode_ofList (by decide)) (isCode_ofList (by decide)) _ (.block ?_ hitems)
    simp only [toString, isCode_append, hmodule hshape, Bool.and_true]
    exact isCode_ofList (by decide)

theorem toList_renderSource (specs : MessageSpecs) (plans : List Plan) (options : Options) :
    (renderSource specs plans options).toList =
      (sourceLines specs plans options).flatMap fun line => line.toList ++ ['\n'] := by
  rw [renderSource, String.toList_join, List.flatMap_map]
  simp only [String.toList_append]
  rfl

/-! ## Section 5: The number of lines -/

/-- The number of lines of an accessor with some number of arguments and of templates. -/
def accessorLineCount (arity templates : Nat) : Nat :=
  58 + templates + 6 * arity + if arity = 0 then 6 else 0

theorem length_block (head : String) (body : List String) :
    (block head body).length = body.length + 2 := by
  simp [block]

theorem length_listConstant (head : String) (items : List String) :
    (listConstant head items).length = items.length + 2 := by
  simp [listConstant]

theorem length_setterLines (runtime : String) (index : Nat) (type : ArgType) :
    (setterLines runtime index type).length = 6 := by
  unfold setterLines
  rfl

theorem length_accessorLines (runtime : String) (plan : Plan) :
    (accessorLines runtime plan).length =
      accessorLineCount plan.signature.size plan.templates.length := by
  have hsetters : (plan.signature.types.zipIdx.flatMap fun entry =>
      setterLines runtime entry.2 entry.1).length = 6 * plan.signature.size := by
    simp [List.length_flatMap, length_setterLines, Signature.size, Nat.mul_comm]
  have hdirect : (if plan.signature.size = 0 then directLines runtime else []).length =
      if plan.signature.size = 0 then 6 else 0 := by
    split <;> rfl
  have hreader : (readerLines runtime plan.typeName.str plan.signature.size).length = 17 := rfl
  delta accessorLines
  simp only [List.length_append, length_block, length_listConstant, hdirect, hreader, hsetters,
    List.length_cons, List.length_nil, List.length_map, accessorLineCount]
  omega

/-- The number of lines of a source with some number of locales and with accessors given by their
numbers of arguments and of templates. -/
def sourceLineCount (shape : Shape) (locales : Nat) (accessors : List (Nat × Nat)) : Nat :=
  let items := 10 + locales + accessors.length +
    (accessors.map fun (arity, templates) => 1 + accessorLineCount arity templates).sum
  match shape with
  | .flat => 2 + items
  | .namespaced => 5 + items

theorem length_sourceLines (specs : MessageSpecs) (plans : List Plan) (options : Options) :
    (sourceLines specs plans options).length =
      sourceLineCount options.shape specs.locales.length
        (plans.map fun plan => (plan.signature.size, plan.templates.length)) := by
  have haccessors : (plans.flatMap fun plan =>
      "" :: accessorLines options.runtimePath.str plan).length =
        (plans.map fun plan =>
          1 + accessorLineCount plan.signature.size plan.templates.length).sum := by
    simp [List.length_flatMap, length_accessorLines, Nat.add_comm]
  have hitems : (itemLines specs plans options).length = 10 + specs.locales.length + plans.length +
      (plans.map fun plan =>
        1 + accessorLineCount plan.signature.size plan.templates.length).sum := by
    rw [itemLines, List.length_append, haccessors]
    simp only [bundleLines, List.length_append, length_listConstant, List.length_cons,
      List.length_nil, List.length_map]
    omega
  unfold sourceLines sourceLineCount
  cases hshape : options.shape with
  | flat =>
    simp only [List.length_append, List.length_cons, List.length_nil, hitems, List.map_map,
      List.length_map, Function.comp_def]
  | namespaced =>
    simp only [List.length_append, List.length_cons, List.length_nil, length_block, hitems,
      List.map_map, List.length_map, Function.comp_def]
    omega

/-! ## Section 6: Generated sources -/

/-- **Texts cannot break a generated source.** The literals of the source are the quoted texts of
the bundle in their order, and there are no others; each stands in one line and reads back as its
text. The number of lines therefore depends on the texts in no way. -/
theorem literals_of_generate {options : Options} {specs : MessageSpecs} {generated : Generated}
    (hoptions : options.check = .ok ()) (h : (generate options specs).result = .ok generated) :
    let plans := (planAll specs).1
    let source := generated.source.toList
    let texts := sourceTexts specs plans options
    literals? source = some (texts.map quote) ∧
      (∀ t ∈ texts, unquote? (quote t) = some t ∧ '\n' ∉ quote t ∧ '\r' ∉ quote t) ∧
      generated.accessors = plans.map Plan.key ∧
      (lines source).length = sourceLineCount options.shape specs.locales.length
        (plans.map fun plan => (plan.signature.size, plan.templates.length)) := by
  intro plans source texts
  rw [result_generate] at h
  split at h
  · exact absurd h (by simp)
  obtain rfl := Except.ok.inj h
  have hembeds : LinesEmbed (sourceLines specs plans options) texts :=
    embeds_sourceLines specs hoptions
  have hsource : source = (sourceLines specs plans options).flatMap fun line =>
      line.toList ++ ['\n'] := toList_renderSource specs plans options
  refine ⟨?_, fun t _ => ⟨unquote?_quote t, ?_, ?_⟩, rfl, ?_⟩
  · rw [hsource]
    exact hembeds.literals?_eq
  · exact fun hmem => absurd (isLineBreak_of_mem_quote hmem) (by decide)
  · exact fun hmem => absurd (isLineBreak_of_mem_quote hmem) (by decide)
  · rw [hsource, hembeds.lines_eq, List.length_map, length_sourceLines]

/-- A key that closes its quotes, opens a line and would open an attribute, and a template with a
backslash, a zero width space and the end of the module in it. -/
theorem literals_of_generate_hostile :
    let en : LocaleTag := ⟨"en".toList, none, none, []⟩
    let key : Text := "k\"]\n#[x".toList
    let specs : MessageSpecs :=
      { bundleName := "app\"".toList, keyPrefix := "m.".toList, mainLocale := en, locales := [en]
        specs := .ofList [(key, ⟨key, some ⟨[]⟩, .ofList [(en, "\\\"\u200b\r\n\x7d".toList)]⟩)]
        errors := [] }
    ∃ generated, (generate .standard specs).result = .ok generated ∧
      literals? generated.source.toList = some (["\"app\\\"\"",
        "\"Typed accessors for message bundle `app\\\"`.\"", "\"en\"", "\"en\"",
        "\"k\\\"]\\n#[x\"",
        "\"`k\\\"]\\n#[x`: \\\\\\\"\\u\x7b200b\x7d\\r\\n\x7d\"",
        "\"Accessor for key `m.k\\\"]\\n#[x`.\"", "\"m.k\\\"]\\n#[x\"", "\"k\\\"]\\n#[x\"",
        "\"en\"", "\"\\\\\\\"\\u\x7b200b\x7d\\r\\n\x7d\""].map String.toList) ∧
      (lines generated.source.toList).length = 83 := by
  intro en key specs
  have hplans : (planAll specs).1.map (fun plan => (plan.signature.size, plan.templates.length)) =
      [(0, 1)] := by
    decide +kernel
  have hoptions : Options.check .standard = .ok () := by decide +kernel
  obtain ⟨generated, h⟩ : ∃ generated, (generate .standard specs).result = .ok generated := by
    rw [result_generate, if_neg fun hempty => by rw [hempty] at hplans; simp at hplans]
    exact ⟨_, rfl⟩
  obtain ⟨hliterals, -, -, hlines⟩ := literals_of_generate hoptions h
  refine ⟨generated, h, hliterals.trans (congrArg some ?_), hlines.trans ?_⟩
  · decide +kernel
  · rw [hplans]
    rfl

end MessageCatalog.Accessor
