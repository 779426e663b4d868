import Supercell.Zscript.NativeCalls

/-!
# The rules for the scripts

What `ZS2OPT_ALL` registers and leaves behind when `ZS_2_NATIVE_CODE` calls it:
three rules that depend on the call alone, and one more generated file in the
list.
-/

namespace Supercell

namespace Zscript

open CMake CMake.Scope Hashmap Options Sections

variable {dir : String} {s t : Scope} {argn files options : List String}

/-! ## What the rules are made of -/

/-- The files of a target, up to their extensions. -/
def targetPath (s : Scope) (argn : List String) : String :=
  s.value "CMAKE_CURRENT_BINARY_DIR" ++ "/" ++ targetOf argn

/-- **The generated source** of a target. -/
def generated (s : Scope) (argn : List String) : String :=
  targetPath s argn ++ if asksGpu argn then ".zsall.cu" else ".zsall.c"

/-- The variables that the rules are made of. -/
def ruleVariables : List String :=
  ["_all_CU", "_all_C", "_output_OPT_BC", "_output_ALL_BC", "CMAKE_COMMAND",
    "EXECUTABLE_OUTPUT_PATH", "LLVM_BINDIR", "ZCC_BC", "__zcc_options", "__zs_files"]

/-- The three rules for the scripts. -/
def optRules (gpu : Bool) (s : Scope) : List BuildRule :=
  [if gpu then allCuRule s else allCRule s, allBcRule s, optBcRule s]

/-- What a call itself puts into these variables. -/
def ruleScope (dir : String) (s : Scope) (argn : List String) : Scope :=
  namePaths (((s.assign "__target_name" (targetOf argn)).assign "__zs_files"
    (joined ((scriptsOf argn).map (absolutePath dir)))).assign "__zcc_options"
    (joined (given argn "ZCC_OPTIONS" ++ ["--arch", archWord argn])))

/-- Rules of equal variables are equal. -/
theorem rules_congr (h : ∀ x ∈ ruleVariables, t.value x = s.value x) :
    allCuRule t = allCuRule s ∧ allCRule t = allCRule s ∧ allBcRule t = allBcRule s ∧
      optBcRule t = optBcRule s := by
  have hexpand : ∀ x ∈ ruleVariables, t.expand x = s.expand x := fun x hx => by
    rw [Scope.expand, Scope.expand, h x hx]
  refine ⟨?_, ?_, ?_, ?_⟩
  · rw [allCuRule, allCuRule, removeCommand, removeCommand, hexpand "_all_CU" (by decide),
      hexpand "_output_OPT_BC" (by decide), hexpand "CMAKE_COMMAND" (by decide),
      h "EXECUTABLE_OUTPUT_PATH" (by decide)]
  · rw [allCRule, allCRule, removeCommand, removeCommand, hexpand "_all_C" (by decide),
      hexpand "_output_OPT_BC" (by decide), hexpand "CMAKE_COMMAND" (by decide),
      h "LLVM_BINDIR" (by decide)]
  · rw [allBcRule, allBcRule, removeCommand, removeCommand, zccWords, zccWords,
      hexpand "_output_ALL_BC" (by decide), hexpand "__zs_files" (by decide),
      hexpand "ZCC_BC" (by decide), hexpand "CMAKE_COMMAND" (by decide),
      hexpand "__zcc_options" (by decide)]
  · rw [optBcRule, optBcRule, removeCommand, removeCommand, hexpand "_output_OPT_BC" (by decide),
      hexpand "_output_ALL_BC" (by decide), hexpand "CMAKE_COMMAND" (by decide),
      h "LLVM_BINDIR" (by decide)]

/-- The variables that `namePaths` writes. -/
def pathVariables : List String := ["_all_C", "_all_CU", "_output_OPT_BC", "_output_ALL_BC"]

theorem namePaths_agreesOff (s : Scope) : AgreesOff pathVariables s (namePaths s) :=
  ((((AgreesOff.refl _ s).assign (by decide) _).assign (by decide) _).assign (by decide) _).assign
    (by decide) _

/-- The extensions of the paths. -/
def pathExtensions : List (String × String) :=
  [("_all_C", ".zsall.c"), ("_all_CU", ".zsall.cu"), ("_output_OPT_BC", ".opt.bc"),
    ("_output_ALL_BC", ".all.bc")]

/-- **The paths follow the directory and the target.** -/
theorem namePaths_value (s : Scope) : ∀ p ∈ pathExtensions, (namePaths s).value p.1 =
    s.value "CMAKE_CURRENT_BINARY_DIR" ++ "/" ++ s.value "__target_name" ++ p.2 := by
  intro p hp
  unfold namePaths
  dsimp only
  simp only [pathExtensions, List.mem_cons, List.not_mem_nil, or_false] at hp
  -- a path that is written stays while the others are
  rcases hp with rfl | rfl | rfl | rfl
  · rw [value_assign_of_ne _ (by decide), value_assign_of_ne _ (by decide),
      value_assign_of_ne _ (by decide), value_assign_self]
  · rw [value_assign_of_ne _ (by decide), value_assign_of_ne _ (by decide), value_assign_self]
  · rw [value_assign_of_ne _ (by decide), value_assign_self]
  · rw [value_assign_self]

/-! ## The variables of the rules -/

section RuleScope

variable (dir : String) (s : Scope) (argn : List String)

/-- The options that are handed on: those of the call, and the architecture. -/
abbrev archOptions : List String := given argn "ZCC_OPTIONS" ++ ["--arch", archWord argn]

theorem ruleScope_path : ∀ p ∈ pathExtensions,
    (ruleScope dir s argn).value p.1 = targetPath s argn ++ p.2 := by
  intro p hp
  rw [ruleScope, namePaths_value _ p hp, targetPath, value_assign_of_ne _ (by decide),
    value_assign_of_ne _ (by decide), value_assign_of_ne _ (by decide),
    value_assign_of_ne _ (by decide), value_assign_of_ne _ (by decide), value_assign_self]

theorem ruleScope_files : (ruleScope dir s argn).value "__zs_files" =
    joined ((scriptsOf argn).map (absolutePath dir)) := by
  rw [ruleScope, (namePaths_agreesOff _).value (by decide), value_assign_of_ne _ (by decide),
    value_assign_self]

theorem ruleScope_options :
    (ruleScope dir s argn).value "__zcc_options" = joined (archOptions argn) := by
  rw [ruleScope, (namePaths_agreesOff _).value (by decide), value_assign_self]

/-- The variables of the rules that no call writes. -/
def toolVariables : List String :=
  ["CMAKE_COMMAND", "EXECUTABLE_OUTPUT_PATH", "LLVM_BINDIR", "ZCC_BC"]

theorem ruleScope_tool : ∀ x ∈ toolVariables, (ruleScope dir s argn).value x = s.value x := by
  intro x hx
  have hnot : ∀ y ∈ toolVariables,
      y ∉ pathVariables ∧ y ∉ ["__target_name", "__zs_files", "__zcc_options"] := by decide
  have hassign : AgreesOff ["__target_name", "__zs_files", "__zcc_options"] s
      (((s.assign "__target_name" (targetOf argn)).assign "__zs_files"
        (joined ((scriptsOf argn).map (absolutePath dir)))).assign "__zcc_options"
        (joined (archOptions argn))) :=
    (((AgreesOff.refl _ s).assign (by decide) _).assign (by decide) _).assign (by decide) _
  rw [ruleScope, (namePaths_agreesOff _).value (hnot x hx).1, hassign.value (hnot x hx).2]

variable {dir s argn}

/-- **A scope with what the call itself puts there**, however it came about. -/
theorem ruleScope_value (hpath : ∀ p ∈ pathExtensions, t.value p.1 = targetPath s argn ++ p.2)
    (hfiles : t.value "__zs_files" = joined ((scriptsOf argn).map (absolutePath dir)))
    (hoptions : t.value "__zcc_options" = joined (archOptions argn))
    (htool : ∀ x ∈ toolVariables, t.value x = s.value x) :
    ∀ x ∈ ruleVariables, t.value x = (ruleScope dir s argn).value x := by
  intro x hx
  have hcases : ∀ y ∈ ruleVariables, (∃ p ∈ pathExtensions, y = p.1) ∨ y = "__zs_files" ∨
      y = "__zcc_options" ∨ y ∈ toolVariables := by decide
  rcases hcases x hx with ⟨p, hp, rfl⟩ | rfl | rfl | htools
  · rw [hpath p hp, ruleScope_path dir s argn p hp]
  · rw [hfiles, ruleScope_files]
  · rw [hoptions, ruleScope_options]
  · rw [htool x htools, ruleScope_tool dir s argn x htools]

end RuleScope

/-! ## The arguments -/

/-- The sections of the arguments that are handed on. -/
theorem part_optAll {target arch : String} (htarget : target ∉ optAllKeywords)
    (hfiles : ∀ f ∈ files, f ∉ optAllKeywords) (harch : arch ∉ optAllKeywords)
    (hoptions : ∀ o ∈ options, o ∉ optAllKeywords) (k : String) :
    part optAllKeywords "default" ("TARGET_NAME" :: [target] ++ ("ZS_FILES" :: files ++
      ("ZCC_ARCH" :: [arch] ++ "ZCC_OPTIONS" :: options))) k =
        (((if "TARGET_NAME" = k then [target] else []) ++ if "ZS_FILES" = k then files else []) ++
          if "ZCC_ARCH" = k then [arch] else []) ++ if "ZCC_OPTIONS" = k then options else [] := by
  have hassoc : "TARGET_NAME" :: [target] ++ ("ZS_FILES" :: files ++ ("ZCC_ARCH" :: [arch] ++
      "ZCC_OPTIONS" :: options)) = ((([] ++ "TARGET_NAME" :: [target]) ++ "ZS_FILES" :: files) ++
        "ZCC_ARCH" :: [arch]) ++ "ZCC_OPTIONS" :: options := by simp
  have hsingle : ∀ {w : String}, w ∉ optAllKeywords → ∀ y ∈ [w], y ∉ optAllKeywords :=
    fun hw y hy => List.mem_singleton.1 hy ▸ hw
  rw [hassoc, (part_append_cons (by decide) options hoptions).2,
    (part_append_cons (by decide) [arch] (hsingle harch)).2,
    (part_append_cons (by decide) files hfiles).2,
    (part_append_cons (by decide) [target] (hsingle htarget)).2, part_nil, List.nil_append]

/-- A word of a section is none of the keywords of `ZS2OPT_ALL`. -/
theorem NativeArgs.notMem_optAllKeywords (h : NativeArgs argn) {k a : String}
    (ha : a ∈ given argn k) : a ∉ optAllKeywords := by
  intro hmem
  have hsub : ∀ w ∈ optAllKeywords, w ∈ nativeKeywords ∨ w = "ZS_FILES" := by decide
  rcases hsub a hmem with hnative | rfl
  · exact notMem_keywords_of_mem_part ha hnative
  · exact h.no_keyword _ (NativeArgs.mem ha) (by decide)

/-- A word that begins with a slash is no keyword. -/
theorem absolutePath_notMem (dir f : String) :
    absolutePath dir f ∉ "PARENT_SCOPE" :: "CACHE" :: optAllKeywords := by
  intro hmem
  obtain ⟨cs, hcs⟩ := exists_absolutePath_eq dir f
  have hnone : ∀ w ∈ "PARENT_SCOPE" :: "CACHE" :: optAllKeywords, w.toList.head? ≠ some '/' := by
    decide
  exact hnone _ hmem (by rw [hcs]; rfl)

theorem NativeReady.optAllArguments_eq (ht : NativeReady dir s t argn) :
    optAllArguments t = "TARGET_NAME" :: [targetOf argn] ++
      ("ZS_FILES" :: (scriptsOf argn).map (absolutePath dir) ++
        ("ZCC_ARCH" :: [archOf argn] ++ "ZCC_OPTIONS" :: archOptions argn)) := by
  rw [optAllArguments, ht.target.expand, ht.scripts.expand, ht.arch.expand, ht.options.expand]

/-- **The arguments of `ZS2OPT_ALL`** are plain words in a quiet scope. -/
theorem NativeReady.keywordCall (hs : NativeScope dir s) (h : NativeArgs argn)
    (ht : NativeReady dir s t argn) : KeywordCall t optAllKeywords (optAllArguments t) := by
  have hquiet : ∀ x ∈ readWritten ++ archWritten, ¬ IsRead x := by decide
  have htarget : targetOf argn ∈ given argn "TARGET_NAME" := by
    rw [h.target]
    exact List.mem_singleton_self _
  have harch : archOf argn ∈ given argn "ZCC_ARCH" := by
    rw [h.arch]
    exact List.mem_singleton_self _
  have harchWord : Plain (archWord argn) ∧ archWord argn ∉ ["PARENT_SCOPE", "CACHE"] := by
    rw [archWord]
    split <;> decide
  have hsection : ∀ {k a : String}, a ∈ given argn k →
      Plain a ∧ a ∉ ["PARENT_SCOPE", "CACHE"] := by
    intro k a ha
    have hsub : ∀ w ∈ ["PARENT_SCOPE", "CACHE"], w ∈ ["PARENT_SCOPE", "CACHE", "ZS_FILES"] := by
      decide
    exact ⟨h.plain a (NativeArgs.mem ha), fun hmem =>
      h.no_keyword a (NativeArgs.mem ha) (hsub a hmem)⟩
  have hscript : ∀ f ∈ scriptsOf argn, Plain (absolutePath dir f) ∧
      absolutePath dir f ∉ ["PARENT_SCOPE", "CACHE"] := by
    intro f hf
    have hsub : ∀ w ∈ ["PARENT_SCOPE", "CACHE"], w ∈ "PARENT_SCOPE" :: "CACHE" :: optAllKeywords := by
      decide
    exact ⟨plain_absolutePath hs.source (h.files f (List.mem_append_right _ hf)).1, fun hmem =>
      absolutePath_notMem dir f (hsub _ hmem)⟩
  have hall : ∀ a ∈ optAllArguments t, Plain a ∧ a ∉ ["PARENT_SCOPE", "CACHE"] := by
    rw [ht.optAllArguments_eq]
    intro a ha
    simp only [List.mem_append, List.mem_cons, List.mem_map, List.not_mem_nil, or_false] at ha
    -- keywords alternate with the sections that the call was asked for
    rcases ha with (rfl | rfl) | (rfl | ⟨f, hf, rfl⟩) | (rfl | rfl) | rfl | ha | rfl | rfl
    · decide
    · exact hsection htarget
    · decide
    · exact hscript f hf
    · decide
    · exact hsection harch
    · decide
    · exact hsection ha
    · decide
    · exact harchWord
  exact {
    quiet := hs.quiet.agreesOff ht.frame hquiet
    default_undefined := (ht.frame _ (by decide)).trans (hs.undefined _ (by decide))
    plain := fun a ha => (hall a ha).1
    no_keyword := fun a ha => (hall a ha).2
    plain_keywords := by decide
    nodup := by decide }

/-- The variables that `ZS2OPT_ALL` writes. -/
def optAllWritten : List String :=
  parseVariables ++ optAllVariables.map Prod.snd ++ putScratch ++ pathVariables ++
    ["__zcc_arch_tolower", "__zs_all_file"]

theorem plain_targetPath (hs : NativeScope dir s) (h : NativeArgs argn) {ext : String}
    (hext : literal ext = true) : Plain (targetPath s argn ++ ext) :=
  hs.plain_inBinary h.target_name.1 hext

/-- **What `ZS2OPT_ALL` reads**: what it is called with. -/
structure OptAllRead (dir : String) (t u : Scope) (argn : List String) : Prop where
  target : u.Holds "__target_name" [targetOf argn]
  files : u.Holds "__zs_files" ((scriptsOf argn).map (absolutePath dir))
  arch : u.Holds "__zcc_arch" [archOf argn]
  options : u.Holds "__zcc_options" (archOptions argn)
  frame : AgreesOff (parseVariables ++ optAllVariables.map Prod.snd ++ putScratch) t u

theorem NativeReady.read (hs : NativeScope dir s) (h : NativeArgs argn)
    (ht : NativeReady dir s t argn) :
    ∃ u v, parseOptions t optAllKeywords (optAllArguments t) = .ok u ∧
      getOptions u optAllVariables = .ok v ∧ OptAllRead dir t v argn := by
  have htarget : targetOf argn ∉ optAllKeywords :=
    h.notMem_optAllKeywords (k := "TARGET_NAME") (by rw [h.target]; exact List.mem_cons_self)
  have harch : archOf argn ∉ optAllKeywords :=
    h.notMem_optAllKeywords (k := "ZCC_ARCH") (by rw [h.arch]; exact List.mem_cons_self)
  have hfiles : ∀ f ∈ (scriptsOf argn).map (absolutePath dir), f ∉ optAllKeywords := by
    intro f hf
    obtain ⟨g, -, rfl⟩ := List.mem_map.1 hf
    exact fun hmem =>
      absolutePath_notMem dir g (List.mem_cons_of_mem _ (List.mem_cons_of_mem _ hmem))
  have hoptions : ∀ o ∈ archOptions argn, o ∉ optAllKeywords := by
    intro o ho
    rw [List.mem_append, List.mem_cons, List.mem_singleton] at ho
    rcases ho with ho | rfl | rfl
    · exact h.notMem_optAllKeywords ho
    · decide
    · rw [archWord]
      split <;> decide
  have hpart := part_optAll htarget hfiles harch hoptions
  rw [← ht.optAllArguments_eq] at hpart
  obtain ⟨u, hu, hparsed, huframe⟩ := parseOptions_returns (ht.keywordCall hs h)
  have hreadable : Readable optAllKeywords optAllVariables := by decide
  obtain ⟨v, hv, hgives, -, hvframe⟩ := getOptions_returns hparsed hreadable
  have hheld : ∀ o ∈ optAllVariables, v.Holds o.2
      (part optAllKeywords "default" (optAllArguments t) o.1) := fun o ho => (hgives o ho).toHolds
  simp only [hpart] at hheld
  refine ⟨u, v, hu, hv, ?_, ?_, ?_, ?_, (huframe.mono (by decide)).trans (hvframe.mono (by decide))⟩
  · simpa using hheld ("TARGET_NAME", "__target_name") (by decide)
  · simpa using hheld ("ZS_FILES", "__zs_files") (by decide)
  · simpa using hheld ("ZCC_ARCH", "__zcc_arch") (by decide)
  · simpa using hheld ("ZCC_OPTIONS", "__zcc_options") (by decide)

/-- **`ZS2OPT_ALL` registers the rules for the scripts**, and adds the generated
file to the list that it is given. -/
theorem zs2optAll_returns {old : List String} (hs : NativeScope dir s) (h : NativeArgs argn)
    (ht : NativeReady dir s t argn) (hold : t.Holds "__zs_all_file" old) :
    Returns (zs2optAll t "__zs_all_file" (optAllArguments t)) fun r =>
      r.1.Holds "__zs_all_file" (old ++ [generated s argn]) ∧
        r.1.Holds "__target_name" [targetOf argn] ∧
        r.2 = optRules (asksGpu argn) (ruleScope dir s argn) ∧ AgreesOff optAllWritten t r.1 := by
  obtain ⟨u, v, hu, hv, hread⟩ := ht.read hs h
  have hnamed := namePaths_agreesOff v
  have htv : AgreesOff optAllWritten t v := hread.frame.mono (by decide)
  -- the two words that the conditions compare with are no variables
  have hundefined : (namePaths v) "gpu" = none ∧ (namePaths v) "cpu" = none := by
    constructor
    · rw [hnamed _ (by decide), htv _ (by decide), ht.frame _ (by decide),
        hs.undefined _ (by decide)]
    · rw [hnamed _ (by decide), htv _ (by decide), ht.frame _ (by decide),
        hs.undefined _ (by decide)]
  obtain ⟨w, hw, hword, hgpu, hcpu, hwframe⟩ := lowerArch_returns h
    (hread.arch.agreesOff hnamed (by decide)) hundefined
  have hvw : AgreesOff (pathVariables ++ ["__zcc_arch_tolower"]) v w :=
    (hnamed.mono (by decide)).trans (hwframe.mono (by decide))
  have hsv : ∀ x, x ∉ readWritten ++ archWritten ++ optAllWritten → v.value x = s.value x := by
    intro x hx
    rw [List.mem_append, not_or] at hx
    rw [htv.value hx.2, ht.frame.value hx.1]
  -- the variables of the rules are as the call itself makes them
  have hpath : ∀ p ∈ pathExtensions, w.value p.1 = targetPath s argn ++ p.2 := by
    intro p hp
    have hnot : ∀ q ∈ pathExtensions, q.1 ∉ ["__zcc_arch_tolower"] := by decide
    rw [hwframe.value (hnot p hp), namePaths_value v p hp, hsv _ (by decide), hread.target.text,
      joined_singleton, targetPath]
  have hrule : ∀ x ∈ ruleVariables, w.value x = (ruleScope dir s argn).value x := by
    refine ruleScope_value hpath (hread.files.agreesOff hvw (by decide)).text
      (hread.options.agreesOff hvw (by decide)).text fun x hx => ?_
    have hnot : ∀ y ∈ toolVariables, y ∉ pathVariables ++ ["__zcc_arch_tolower"] ∧
        y ∉ readWritten ++ archWritten ++ optAllWritten := by decide
    rw [hvw.value (hnot x hx).1, hsv x (hnot x hx).2]
  have hexpand : ∀ p ∈ pathExtensions, w.expand p.1 = [targetPath s argn ++ p.2] := by
    intro p hp
    have hliteral : ∀ q ∈ pathExtensions, literal q.2 = true := by decide
    exact expand_of_value_eq (hpath p hp) (plain_targetPath hs h (hliteral p hp)).toWord
  have hallHeld : w.Holds "__zs_all_file" old := by
    refine hold.agreesOff (N := parseVariables ++ optAllVariables.map Prod.snd ++ putScratch ++
      pathVariables ++ ["__zcc_arch_tolower"]) ?_ (by decide)
    exact (hread.frame.mono (by decide)).trans (hvw.mono (by decide))
  -- the rules that follow do not read the list of generated files
  have hdone : ∀ ext, literal ext = true → generated s argn = targetPath s argn ++ ext →
      let w' := w.listAppend "__zs_all_file" [targetPath s argn ++ ext]
      w'.Holds "__zs_all_file" (old ++ [generated s argn]) ∧
        w'.Holds "__target_name" [targetOf argn] ∧ AgreesOff optAllWritten t w' ∧
        allBcRule w' = allBcRule (ruleScope dir s argn) ∧
        optBcRule w' = optBcRule (ruleScope dir s argn) := by
    intro ext hext hgenerated w'
    have hw' : AgreesOff ["__zs_all_file"] w w' := (AgreesOff.refl _ w).listAppend (by simp) _
    have hnot : ∀ x ∈ ruleVariables, x ∉ ["__zs_all_file"] := by decide
    have hcongr := rules_congr (t := w') (s := ruleScope dir s argn) fun x hx => by
      rw [hw'.value (hnot x hx), hrule x hx]
    refine ⟨?_, ?_, ?_, hcongr.2.2.1, hcongr.2.2.2⟩
    · rw [hgenerated]
      exact hallHeld.listAppend _ fun f hf =>
        List.mem_singleton.1 hf ▸ (plain_targetPath hs h hext).toWord
    · exact (hread.target.agreesOff hvw (by decide)).agreesOff hw' (by decide)
    · exact htv.trans ((hvw.mono (by decide)).trans (hw'.mono (by decide)))
  have hcongr := rules_congr hrule
  unfold zs2optAll
  rw [hu, ok_bind, hv, ok_bind, hw, ok_bind, hword, ok_bind, hgpu]
  -- the two branches differ in the file they add, and in its rule
  cases hask : asksGpu argn with
  | true =>
    have hgenerated : generated s argn = targetPath s argn ++ ".zsall.cu" := by
      rw [generated, if_pos hask]
    obtain ⟨hheld, hname, hframe, hallBc, hoptBc⟩ := hdone ".zsall.cu" (by decide) hgenerated
    rw [← hexpand ("_all_CU", ".zsall.cu") (by decide)] at hheld hname hframe hallBc hoptBc
    refine Returns.ok ⟨hheld, hname, ?_, hframe⟩
    rw [optRules, if_pos rfl, hallBc, hoptBc, hcongr.1]
  | false =>
    have hgenerated : generated s argn = targetPath s argn ++ ".zsall.c" := by
      rw [generated, hask, if_neg Bool.false_ne_true]
    obtain ⟨hheld, hname, hframe, hallBc, hoptBc⟩ := hdone ".zsall.c" (by decide) hgenerated
    rw [← hexpand ("_all_C", ".zsall.c") (by decide)] at hheld hname hframe hallBc hoptBc
    rw [if_neg Bool.false_ne_true, if_pos (hcpu hask)]
    refine Returns.ok ⟨hheld, hname, ?_, hframe⟩
    rw [optRules, if_neg Bool.false_ne_true, hallBc, hoptBc, hcongr.2.1]

end Zscript

end Supercell
