import MessageCatalog.Proofs.NameClaims
import MessageCatalog.Proofs.Segmentation

/-!
# Names of accessors

Constants, types and builders of the accessors stand in one module beside the constants of the
bundle. Their names are read here off the generated lines, as the outer declarations of the module.
They are distinct and they are identifiers but no keywords, whatever characters the keys hold.

## Main statements

* `isModuleName_constantName`, `isModuleName_of_typeName?` : the names made from a key are
  identifiers and no keywords
* `nodup_moduleNames` : no two names are the same
* `declaredNames_itemLines` : the generated lines declare these names and no others
* `names_of_generate` : all of it, for every source that is generated
-/

namespace MessageCatalog.Accessor

open Text

/-! ## Section 1: Identifiers -/

theorem isAlpha_eq (c : Char) : c.isAlpha = (c.isUpper || c.isLower) := rfl

theorem isWordChar_of_isShouted {c : Char} (h : isShouted c = true) : isWordChar c = true := by
  simp only [isShouted, isWordChar, Char.isAlphanum, isAlpha_eq, Bool.or_eq_true] at h ⊢
  rcases h with (h | h) | h
  · exact .inl (.inl (.inl h))
  · exact .inl (.inr h)
  · exact .inr h

/-- A text of letters and digits that does not begin with a digit is an identifier. -/
theorem isIdentifier_of_isAlphanum {name : Text} (hne : name ≠ [])
    (hall : ∀ c ∈ name, c.isAlphanum = true) (hdigit : beginsWithDigit name = false) :
    isIdentifier name = true := by
  obtain ⟨c, cs, rfl⟩ := List.exists_cons_of_ne_nil hne
  have hc : isLetter c = true := by
    have hfirst := hall c List.mem_cons_self
    have hplain : c.isDigit = false := by simpa [beginsWithDigit] using hdigit
    simpa [Char.isAlphanum, hplain, isLetter] using hfirst
  have hunderscore : c :: cs ≠ ['_'] := by
    intro heq
    rw [(List.cons.inj heq).1] at hc
    exact absurd hc (by decide)
  have hcs : cs.all isWordChar = true := List.all_eq_true.mpr fun d hd => by
    simp [isWordChar, hall d (List.mem_cons_of_mem c hd)]
  simp [isIdentifier, hc, hunderscore, hcs]

/-- An identifier stays one when letters, digits and underscores are put after it. -/
theorem isIdentifier_append {name tail : Text} (h : isIdentifier name = true)
    (htail : tail.all isWordChar = true) : isIdentifier (name ++ tail) = true := by
  cases name with
  | nil => simp [isIdentifier] at h
  | cons c cs =>
    simp only [isIdentifier, Bool.and_eq_true, List.cons_append, List.all_append,
      bne_iff_ne] at h ⊢
    obtain ⟨⟨hc, hunderscore⟩, hcs⟩ := h
    refine ⟨⟨hc, fun heq => hunderscore ?_⟩, hcs, htail⟩
    obtain ⟨rfl, hnil⟩ := List.cons.inj heq
    rw [(List.append_eq_nil_iff.mp hnil).1]

theorem isKeyword_eq_true_iff {name : Text} :
    isKeyword name = true ↔ ∃ k ∈ keywords, k.toList = name := by
  simp [isKeyword]

/-- The texts that are put after names. -/
def nameTails : List Text := ["_", "Message", "Builder"].map String.toList

/-- No keyword ends like a name that has got a tail. -/
theorem isKeyword_append {tail : Text} (htail : tail ∈ nameTails) (name : Text) :
    isKeyword (name ++ tail) = false := by
  have htails : ∀ k ∈ keywords, ∀ tail ∈ nameTails, ¬ tail <:+ k.toList := by decide
  rw [Bool.eq_false_iff, ne_eq, isKeyword_eq_true_iff]
  rintro ⟨k, hk, heq⟩
  exact htails k hk tail htail ⟨name, heq.symm⟩

/-- **A name stays an identifier, and becomes no keyword, when a tail is put after it.** -/
theorem isModuleName_append {name tail : Text} (h : isIdentifier name = true)
    (htail : tail ∈ nameTails) : isModuleName (name ++ tail) = true := by
  have hwords : ∀ tail ∈ nameTails, tail.all isWordChar = true := by decide
  simp [isModuleName, isIdentifier_append h (hwords tail htail), isKeyword_append htail]

/-! ## Section 2: Names from keys -/

theorem beginsWithDigit_constantName (key : Text) : beginsWithDigit (constantName key) = false := by
  simp only [constantName]
  split
  · rfl
  · rename_i h
    simpa using h

theorem isKeyword_of_isShouted {name : Text} (h : ∀ c ∈ name, isShouted c = true) :
    isKeyword name = false := by
  have hsmall : ∀ k ∈ keywords, k.toList.all isShouted = false := by decide
  rw [Bool.eq_false_iff, ne_eq, isKeyword_eq_true_iff]
  rintro ⟨k, hk, rfl⟩
  exact absurd (List.all_eq_true.mpr h) (by simp [hsmall k hk])

/-- **A usable constant is an identifier and no keyword.** -/
theorem isModuleName_constantName {key : Text} (h : isUsableConstant (constantName key) = true) :
    isModuleName (constantName key) = true := by
  have hshouted : ∀ c ∈ constantName key, isShouted c = true :=
    fun _ hc => isShouted_of_mem_constantName hc
  have hdigit := beginsWithDigit_constantName key
  rw [isUsableConstant, Bool.and_eq_true] at h
  rw [isModuleName, isKeyword_of_isShouted hshouted]
  cases hname : constantName key with
  | nil => simp [hname] at h
  | cons c cs =>
    rw [hname] at h hshouted hdigit
    have hc : (isLetter c || c == '_') = true := by
      have hplain : c.isDigit = false := by simpa [beginsWithDigit] using hdigit
      have hfirst := hshouted c List.mem_cons_self
      rw [isShouted, hplain, Bool.or_false] at hfirst
      simp only [isLetter, isAlpha_eq, Bool.or_eq_true] at hfirst ⊢
      exact hfirst.imp .inl id
    have hunderscore : c :: cs ≠ ['_'] := fun heq => by simp [heq] at h
    have hcs : cs.all isWordChar = true := List.all_eq_true.mpr fun d hd =>
      isWordChar_of_isShouted (hshouted d (List.mem_cons_of_mem c hd))
    simp [isIdentifier, hc, hunderscore, hcs]

/-- The parts of a text hold its characters, less those that divide it. -/
theorem flatten_splitOn (d : Char) (t : Text) : (t.splitOn d).flatten = t.filter (· != d) := by
  unfold List.splitOn
  induction t with
  | nil => rfl
  | cons c t ih =>
    rw [List.splitOnP_cons_eq_if_modifyHead]
    by_cases hc : c = d
    · simp [hc, ih]
    · obtain ⟨part, parts, hsplit⟩ :=
        List.exists_cons_of_ne_nil (List.splitOnP_ne_nil (· == d) t)
      rw [hsplit] at ih ⊢
      simp [hc, ← ih]

theorem exists_mem_of_mem_camelPart {part : Text} {c : Char} (h : c ∈ camelPart part) :
    ∃ d ∈ part, c = d ∨ c = d.toLower := by
  cases part with
  | nil => simp [camelPart] at h
  | cons d part =>
    rcases List.mem_cons.mp h with rfl | h
    · exact ⟨c, List.mem_cons_self, .inl rfl⟩
    · obtain ⟨e, he, rfl⟩ := List.mem_map.mp h
      exact ⟨e, List.mem_cons_of_mem d he, .inr rfl⟩

theorem isAlphanum_of_isShouted {c : Char} (h : isShouted c = true) (hc : c ≠ '_') :
    c.isAlphanum = true ∧ c.toLower.isAlphanum = true := by
  have hascii : ∀ n < 128, isShouted (Char.ofNat n) = true → Char.ofNat n ≠ '_' →
      (Char.ofNat n).isAlphanum = true ∧ (Char.ofNat n).toLower.isAlphanum = true := by decide
  have hsmall : c.toNat < 128 := by
    have hval : c.toNat = c.val.toNat := rfl
    have hlast : 'Z'.val.toNat = 90 ∧ '9'.val.toNat = 57 := by decide
    have hupper : c.isUpper = decide (c.val ≥ 'A'.val ∧ c.val ≤ 'Z'.val) := rfl
    simp only [isShouted, hupper, Char.isDigit, Bool.or_eq_true, Bool.and_eq_true,
      decide_eq_true_eq, UInt32.le_iff_toNat_le, ge_iff_le, beq_iff_eq, hc, or_false] at h
    omega
  have hcase := hascii c.toNat hsmall
  rw [Char.ofNat_toNat] at hcase
  exact hcase h hc

/-- The parts of a constant in camel case are letters and digits. -/
theorem isAlphanum_of_mem_camel {constant : Text} (h : ∀ c ∈ constant, isShouted c = true)
    {c : Char} (hc : c ∈ (constant.splitOn '_').flatMap camelPart) : c.isAlphanum = true := by
  obtain ⟨part, hpart, hc⟩ := List.mem_flatMap.mp hc
  obtain ⟨d, hd, hcase⟩ := exists_mem_of_mem_camelPart hc
  have hmem : d ∈ constant.filter (· != '_') :=
    flatten_splitOn '_' constant ▸ List.mem_flatten.mpr ⟨part, hpart, hd⟩
  obtain ⟨hd, hunderscore⟩ := List.mem_filter.mp hmem
  have halpha := isAlphanum_of_isShouted (h d hd) (by simpa using hunderscore)
  rcases hcase with rfl | rfl
  · exact halpha.1
  · exact halpha.2

/-- Letters and digits are an identifier once a leading digit has letters in front of it. -/
theorem isIdentifier_of_camel {camel : Text} (hne : camel ≠ [])
    (hall : ∀ c ∈ camel, c.isAlphanum = true) :
    isIdentifier (if beginsWithDigit camel then "Msg".toList ++ camel else camel) = true := by
  split
  · refine isIdentifier_of_isAlphanum (by simp) ?_ rfl
    have hmsg : "Msg".toList.all Char.isAlphanum = true := by decide
    exact fun c hc => (List.mem_append.mp hc).elim (List.all_eq_true.mp hmsg c) (hall c)
  · rename_i hdigit
    exact isIdentifier_of_isAlphanum hne hall (by simpa using hdigit)

/-- An identifier that is a keyword is none with an underscore after it. -/
theorem isModuleName_escaped {name : Text} (h : isIdentifier name = true) :
    isModuleName (if isKeyword name then name ++ ['_'] else name) = true := by
  split
  · exact isModuleName_append h (by decide)
  · rename_i hkeyword
    simp [isModuleName, h, hkeyword]

/-- **The type name of a constant is an identifier and no keyword.** -/
theorem isModuleName_of_typeName? {constant typeName : Text}
    (hconstant : ∀ c ∈ constant, isShouted c = true) (h : typeName? constant = some typeName) :
    isModuleName typeName = true := by
  simp only [typeName?] at h
  split at h
  · exact absurd h (by simp)
  · rename_i hne
    obtain rfl := Option.some.inj h
    exact isModuleName_escaped
      (isIdentifier_of_camel hne fun _ hc => isAlphanum_of_mem_camel hconstant hc)

/-! ## Section 3: Names of plans -/

/-- The names that an accessor declares: its constant, its type and its builder. -/
def Plan.names (plan : Plan) : List Text := [plan.constant, plan.typeName, plan.builderName]

/-- The names that the module of a bundle declares. -/
def moduleNames (plans : List Plan) : List Text := reservedConstants ++ plans.flatMap Plan.names

/-- What a plan is made from: a constant that was granted, and a type name made from it. -/
theorem exists_candidate_of_mem_planAll {specs : MessageSpecs} {plan : Plan}
    (h : plan ∈ (planAll specs).1) :
    ∃ key base, plan.constant = constantName key ∧
      isUsableConstant (constantName key) = true ∧ typeName? (constantName key) = some base ∧
      (plan.typeName = base ∨ plan.typeName = base ++ "Message".toList) ∧
      plan.builderName = builderOf plan.typeName := by
  rw [planAll_eq] at h
  obtain ⟨_, candidate, _, hsplit, hclaim⟩ := mem_granted_iff.mp h
  obtain ⟨typeName, htype, rfl⟩ := claimPlan_eq_ok_iff.mp hclaim
  obtain ⟨base, hbase, hcase, _⟩ := typeName_of_claimType htype
  have hmem : candidate ∈ (constantClaims specs).granted := by simp [hsplit]
  obtain ⟨_, spec, _, _, hcandidate⟩ := mem_granted_iff.mp hmem
  obtain ⟨_, _, _, hconstant, husable, _⟩ := candidate_of_claimConstant hcandidate
  rw [hconstant] at husable hbase
  exact ⟨spec.key, base, hconstant, husable, hbase, hcase, rfl⟩

/-- **Every name is an identifier and no keyword.** -/
theorem isModuleName_of_mem_moduleNames {specs : MessageSpecs} {name : Text}
    (h : name ∈ moduleNames (planAll specs).1) : isModuleName name = true := by
  rcases List.mem_append.mp h with h | h
  · have hreserved : ∀ name ∈ reservedConstants, isModuleName name = true := by decide
    exact hreserved name h
  obtain ⟨plan, hplan, hname⟩ := List.mem_flatMap.mp h
  obtain ⟨key, base, hconstant, husable, hbase, htype, hbuilder⟩ :=
    exists_candidate_of_mem_planAll hplan
  have hbaseName : isModuleName base = true :=
    isModuleName_of_typeName? (fun _ hc => isShouted_of_mem_constantName hc) hbase
  have htypeName : isModuleName plan.typeName = true := by
    rcases htype with heq | heq
    · rwa [heq]
    · rw [heq]
      exact isModuleName_append (Bool.and_eq_true_iff.mp hbaseName).1 (by decide)
  simp only [Plan.names, List.mem_cons, List.not_mem_nil, or_false] at hname
  rcases hname with rfl | rfl | rfl
  · rw [hconstant]
    exact isModuleName_constantName husable
  · exact htypeName
  · rw [hbuilder]
    exact isModuleName_append (Bool.and_eq_true_iff.mp htypeName).1 (by decide)

/-- The names of some plans are their constants and their other names. -/
theorem perm_names (plans : List Plan) :
    (plans.flatMap Plan.typeNames ++ plans.map Plan.constant).Perm (plans.flatMap Plan.names) := by
  rw [List.map_eq_flatMap]
  refine (List.flatMap_append_perm plans _ _).trans (List.Perm.flatMap_left plans fun plan _ => ?_)
  exact List.perm_append_comm.trans ((List.Perm.swap _ _ []).cons plan.constant)

/-- All names that the two passes have taken are distinct. -/
theorem nodup_typeClaims (specs : MessageSpecs) : (typeClaims specs).taken.Nodup := by
  have hconstants : (constantClaims specs).taken.Nodup := by
    refine nodup_taken ?_ (by decide) _
    intro taken spec candidate hclaim hnodup
    obtain ⟨_, _, _, _, _, hfree⟩ := candidate_of_claimConstant hclaim
    exact List.nodup_cons.mpr ⟨hfree, hnodup⟩
  refine nodup_taken ?_ hconstants _
  intro taken candidate plan hclaim hnodup
  obtain ⟨typeName, htype, rfl⟩ := claimPlan_eq_ok_iff.mp hclaim
  obtain ⟨_, _, _, hfree, hbuilder⟩ := typeName_of_claimType htype
  have hpair : builderOf typeName ∉ typeName :: taken := by
    rw [List.mem_cons, not_or]
    exact ⟨by simp [builderOf], hbuilder⟩
  exact List.nodup_cons.mpr ⟨hpair, List.nodup_cons.mpr ⟨hfree, hnodup⟩⟩

/-- **No two names are the same.** -/
theorem nodup_moduleNames (specs : MessageSpecs) : (moduleNames (planAll specs).1).Nodup := by
  -- a candidate that gets no type keeps its constant, so the names of the plans are a part of those
  -- that were granted
  have hconstants : ((typeClaims specs).granted.map Plan.constant).Sublist
      ((constantClaims specs).granted.map Candidate.constant) := by
    refine sublist_granted ?_ _ _
    intro taken candidate plan hclaim
    obtain ⟨_, _, rfl⟩ := claimPlan_eq_ok_iff.mp hclaim
    rfl
  have hgranted : ((typeClaims specs).granted.flatMap Plan.typeNames ++
      ((constantClaims specs).granted.map Candidate.constant ++ reservedConstants)).Nodup := by
    have hperm := (perm_taken_typeClaims specs).trans
      ((perm_taken_constantClaims specs).append_left _)
    exact hperm.nodup_iff.mp (nodup_typeClaims specs)
  have hnames := hgranted.sublist ((hconstants.append_right reservedConstants).append_left _)
  rw [planAll_eq, moduleNames]
  refine (List.Perm.trans ?_ List.perm_append_comm).nodup_iff.mp hnames
  rw [← List.append_assoc]
  exact (perm_names _).append_right reservedConstants

/-! ## Section 4: Declared names -/

/-- The name that a line at the outer level of a module declares, if it declares one. -/
def declaredName? (line : String) : Option Text :=
  ((stripPrefix? "pub const ".toList line.toList).or
    (stripPrefix? "pub struct ".toList line.toList)).map (·.takeWhile isWordChar)

/-- The names that lines at the outer level of a module declare. -/
def declaredNames (lines : List String) : List Text := lines.filterMap declaredName?

@[simp] theorem declaredNames_append (lines lines' : List String) :
    declaredNames (lines ++ lines') = declaredNames lines ++ declaredNames lines' :=
  List.filterMap_append

@[simp] theorem declaredNames_cons (line : String) (lines : List String) :
    declaredNames (line :: lines) = (declaredName? line).toList ++ declaredNames lines := by
  simp only [declaredNames, List.filterMap_cons]
  cases declaredName? line <;> rfl

/-- A line that begins otherwise than a declaration. -/
def BeginsOtherwise (line : String) : Prop := (line.toList.head?.any (· != 'p')) = true

instance (line : String) : Decidable (BeginsOtherwise line) :=
  inferInstanceAs (Decidable (_ = true))

theorem declaredName?_eq_none {line : String} (h : BeginsOtherwise line) :
    declaredName? line = none := by
  unfold BeginsOtherwise at h
  cases hline : line.toList with
  | nil => simp [hline] at h
  | cons c cs =>
    have hc : c ≠ 'p' := by simpa [hline] using h
    have hstrip : ∀ tail, stripPrefix? ('p' :: tail) (c :: cs) = none := fun tail => by
      simp [stripPrefix?, Ne.symm hc]
    have hconst := hstrip "ub const ".toList
    have hstruct := hstrip "ub struct ".toList
    rw [declaredName?, hline]
    exact congrArg (Option.map _) (congrArg₂ Option.or hconst hstruct)

/-- It is the beginning of a line that counts. -/
theorem declaredName?_append {start : String} (h : BeginsOtherwise start) (rest : String) :
    declaredName? (start ++ rest) = none := by
  apply declaredName?_eq_none
  unfold BeginsOtherwise at h ⊢
  rw [String.toList_append]
  cases hstart : start.toList with
  | nil => simp [hstart] at h
  | cons c cs => simpa [hstart] using h

@[simp] theorem declaredName?_empty : declaredName? "" = none := by decide

theorem isWordChar_of_mem_identifier {name : Text} (h : isIdentifier name = true) {c : Char}
    (hc : c ∈ name) : isWordChar c = true := by
  cases name with
  | nil => simp at hc
  | cons d name =>
    simp only [isIdentifier, Bool.and_eq_true, Bool.or_eq_true, List.all_eq_true] at h
    obtain ⟨⟨hd, _⟩, hname⟩ := h
    rcases List.mem_cons.mp hc with rfl | hc
    · simp only [isWordChar, Char.isAlphanum, Bool.or_eq_true]
      exact hd.imp .inl id
    · exact hname c hc

/-- A declaration: a name stands behind the words, and ends where the next character is none of a
name. -/
theorem declaredName?_eq_some {line : String} (words : Text) {name rest : Text} {c : Char}
    (hwords : words ∈ ["pub const ", "pub struct "].map String.toList)
    (hline : line.toList = words ++ (name ++ c :: rest)) (hname : isIdentifier name = true)
    (hc : isWordChar c = false) : declaredName? line = some name := by
  have hstrip : (stripPrefix? "pub const ".toList line.toList).or
      (stripPrefix? "pub struct ".toList line.toList) = some (name ++ c :: rest) := by
    rw [hline]
    rcases List.mem_cons.mp hwords with rfl | hwords
    · rw [stripPrefix?_append]
      rfl
    · obtain rfl := List.mem_singleton.mp hwords
      rw [stripPrefix?_append]
      rfl
  rw [declaredName?, hstrip, Option.map_some,
    List.takeWhile_append_of_pos fun _ hd => isWordChar_of_mem_identifier hname hd,
    List.takeWhile_cons_of_neg (by simp [hc]), List.append_nil]

/-- Nothing is declared at a deeper level. -/
@[simp] theorem declaredNames_indent (lines : List String) : declaredNames (indent lines) = [] := by
  rw [declaredNames, List.filterMap_eq_nil_iff]
  intro line hline
  obtain ⟨inner, _, rfl⟩ := List.mem_map.mp hline
  by_cases hempty : inner = ""
  · simp [hempty]
  · have hindented : declaredName? ("    " ++ inner) = none :=
      declaredName?_append (by decide) inner
    simpa [hempty] using hindented

@[simp] theorem declaredNames_block (head : String) (body : List String) :
    declaredNames (block head body) = (declaredName? (opening head)).toList := by
  have hclosing : declaredNames [closing] = [] := by decide
  rw [block, List.cons_append, declaredNames_cons, declaredNames_append, declaredNames_indent,
    hclosing, List.append_nil, List.append_nil]

@[simp] theorem declaredNames_listConstant (head : String) (items : List String) :
    declaredNames (listConstant head items) = (declaredName? s!"{head} = &[").toList := by
  have hclosing : declaredNames ["];"] = [] := by decide
  rw [listConstant, List.cons_append, declaredNames_cons, declaredNames_append,
    declaredNames_indent, hclosing, List.append_nil, List.append_nil]

theorem declaredNames_bundleLines (specs : MessageSpecs) (plans : List Plan) :
    declaredNames (bundleLines specs plans) = reservedConstants := by
  have hmain : declaredName?
      ("pub const MAIN_LOCALE: &str = " ++ (specs.mainLocale.text.quoted ++ ";")) =
        some "MAIN_LOCALE".toList :=
    declaredName?_eq_some "pub const ".toList (c := ':') (by decide) (by simp; rfl) (by decide)
      (by decide)
  have hlocales : declaredName? "pub const LOCALES: &[&str] = &[" = some "LOCALES".toList := by
    decide
  have hkeys : declaredName? "pub const KEYS: &[&str] = &[" = some "KEYS".toList := by decide
  have hcomments : ∀ line ∈ ["/// Canonical locale of the bundle.",
      "/// Every locale the bundle tracks, in tag order.",
      "/// Prefix-stripped keys that have an accessor, in key order."], BeginsOtherwise line := by
    decide
  simp only [List.forall_mem_cons] at hcomments
  simp [bundleLines, toString, String.append_assoc, hmain, hlocales, hkeys, declaredName?_eq_none,
    hcomments, reservedConstants]

/-- The lines of an accessor declare its names. -/
theorem declaredNames_accessorLines (runtime : String) {plan : Plan}
    (h : ∀ name ∈ plan.names, isIdentifier name = true) :
    declaredNames (accessorLines runtime plan) = plan.names := by
  simp only [Plan.names, List.forall_mem_cons] at h
  obtain ⟨hconstantName, htypeName, hbuilderName, _⟩ := h
  have hconstant : declaredName? ("pub const " ++ (plan.constant.str ++ (": " ++
      (plan.typeName.str ++ (" = " ++ (plan.typeName.str ++ ";")))))) = some plan.constant :=
    declaredName?_eq_some "pub const ".toList (c := ':') (by decide) (by simp [str]; rfl)
      hconstantName (by decide)
  have htype : declaredName? ("pub struct " ++ (plan.typeName.str ++ ";")) = some plan.typeName :=
    declaredName?_eq_some "pub struct ".toList (c := ';') (by decide) (by simp [str]; rfl)
      htypeName (by decide)
  have hbuilder : declaredName? ("pub struct " ++ (plan.builderName.str ++ " \x7b")) =
      some plan.builderName :=
    declaredName?_eq_some "pub struct ".toList (c := ' ') (by decide) (by simp [str]; rfl)
      hbuilderName (by decide)
  have hothers : ∀ start ∈ ["#[doc = ", "///", "/// Signature: `", "impl ",
      "#[derive(Debug, Clone, Copy, PartialEq, Eq, Hash)]", "/// Argument builder for [`",
      "#[derive(Debug, Clone, PartialEq)]", "#[must_use]"], BeginsOtherwise start := by
    decide
  simp only [List.forall_mem_cons] at hothers
  simp [accessorLines, opening, toString, String.append_assoc, hconstant, htype, hbuilder,
    declaredName?_eq_none, declaredName?_append, hothers, Plan.names]

/-- **The generated items declare the names of the module and no others**, in the order of the
accessors. -/
theorem declaredNames_itemLines (specs : MessageSpecs) (options : Options) :
    declaredNames (itemLines specs (planAll specs).1 options) = moduleNames (planAll specs).1 := by
  have hnames : ∀ plan ∈ (planAll specs).1, ∀ name ∈ plan.names, isIdentifier name = true := by
    intro plan hplan name hname
    have hmem : name ∈ moduleNames (planAll specs).1 :=
      List.mem_append_right _ (List.mem_flatMap.mpr ⟨plan, hplan, hname⟩)
    exact (Bool.and_eq_true_iff.mp (isModuleName_of_mem_moduleNames hmem)).1
  rw [itemLines, declaredNames_append, declaredNames_bundleLines, moduleNames]
  refine congrArg (reservedConstants ++ ·) ?_
  generalize (planAll specs).1 = plans at hnames
  induction plans with
  | nil => rfl
  | cons plan plans ih =>
    obtain ⟨hplan, hplans⟩ := List.forall_mem_cons.mp hnames
    rw [List.flatMap_cons, List.flatMap_cons, declaredNames_append, declaredNames_cons,
      declaredName?_empty, declaredNames_accessorLines _ hplan, ih hplans]
    rfl

/-! ## Section 5: Generated sources -/

/-- **The names of a generated source.** Every accessor declares a constant, a type and a builder,
and the bundle its three constants; there are no other declarations beside them. These names are
distinct, and each of them is an identifier and no keyword. -/
theorem names_of_generate {options : Options} {specs : MessageSpecs} {generated : Generated}
    (h : (generate options specs).result = .ok generated) :
    let plans := (planAll specs).1
    let names := declaredNames (itemLines specs plans options)
    generated.source = renderSource specs plans options ∧
      generated.accessors = plans.map Plan.key ∧
      names = ["MAIN_LOCALE".toList, "LOCALES".toList, "KEYS".toList] ++
        plans.flatMap (fun plan => [plan.constant, plan.typeName, plan.builderName]) ∧
      names.Nodup ∧ ∀ name ∈ names, isIdentifier name = true ∧ isKeyword name = false := by
  intro plans names
  have hnames : names = moduleNames plans := declaredNames_itemLines specs options
  rw [result_generate] at h
  split at h
  · exact absurd h (by simp)
  obtain rfl := Except.ok.inj h
  refine ⟨rfl, rfl, hnames, hnames ▸ nodup_moduleNames specs, fun name hname => ?_⟩
  rw [hnames] at hname
  simpa [isModuleName] using isModuleName_of_mem_moduleNames hname

/-- Keys among which are one whose type is the constant of another, one whose type is the builder of
another, a reserved constant, a keyword, a leading digit, and a letter that is two in capitals. -/
theorem names_of_generate_colliding :
    let en : LocaleTag := ⟨"en".toList, none, none, []⟩
    let specs : MessageSpecs :=
      { bundleName := "app".toList, keyPrefix := [], mainLocale := en, locales := [en]
        specs := .ofList <|
          ["2fa", "a_b", "ab", "greeting", "greeting_builder", "keys", "self",
              "stra\u00dfe"].map fun key =>
            (key.toList, ⟨key.toList, some ⟨[]⟩, .ofList [(en, "Text".toList)]⟩)
        errors := [] }
    let names := declaredNames (itemLines specs (planAll specs).1 .standard)
    (∃ generated, (generate .standard specs).result = .ok generated) ∧
      names = ["MAIN_LOCALE", "LOCALES", "KEYS", "_2FA", "Msg2fa", "Msg2faBuilder",
        "A_B", "ABMessage", "ABMessageBuilder", "AB", "Ab", "AbBuilder",
        "GREETING", "Greeting", "GreetingBuilder",
        "GREETING_BUILDER", "GreetingBuilderMessage", "GreetingBuilderMessageBuilder",
        "SELF", "Self_", "Self_Builder", "STRASSE", "Strasse", "StrasseBuilder"].map String.toList ∧
      names.Nodup ∧ ∀ name ∈ names, isIdentifier name = true ∧ isKeyword name = false := by
  intro en specs names
  have hplans : (planAll specs).1.flatMap (fun plan =>
      [plan.constant, plan.typeName, plan.builderName]) =
        ["_2FA", "Msg2fa", "Msg2faBuilder", "A_B", "ABMessage", "ABMessageBuilder",
          "AB", "Ab", "AbBuilder", "GREETING", "Greeting", "GreetingBuilder",
          "GREETING_BUILDER", "GreetingBuilderMessage", "GreetingBuilderMessageBuilder",
          "SELF", "Self_", "Self_Builder", "STRASSE", "Strasse",
          "StrasseBuilder"].map String.toList := by
    decide +kernel
  obtain ⟨generated, h⟩ : ∃ generated, (generate .standard specs).result = .ok generated := by
    rw [result_generate, if_neg fun hempty => by rw [hempty] at hplans; simp at hplans]
    exact ⟨_, rfl⟩
  obtain ⟨_, _, hnames, hnodup, hidentifiers⟩ := names_of_generate h
  rw [hplans] at hnames
  exact ⟨⟨generated, h⟩, hnames, hnodup, hidentifiers⟩

end MessageCatalog.Accessor
