import Supercell.Zscript.Native

/-!
# Calls for native code

The arguments of `ZS_2_NATIVE_CODE` as its callers give them, and what the macro
makes of them before it calls `ZS2OPT_ALL`: the lists of files with absolute
paths, the architecture, and the flag that the macro sets for it.
-/

namespace Supercell

namespace Zscript

open CMake CMake.Scope Hashmap Options Sections

/-! ## Arguments -/

/-- A text without characters that are evaluated. -/
def literal (text : String) : Bool := text.toList.all fun c => decide (c ∉ specials)

theorem notMem_specials_of_literal {text : String} (h : literal text = true) :
    ∀ c ∈ text.toList, c ∉ specials := by
  intro c hc
  simpa using List.all_eq_true.1 h c hc

theorem literal_append (text more : String) :
    literal (text ++ more) = (literal text && literal more) := by
  rw [literal, String.toList_append, List.all_append, literal, literal]

theorem plain_of_literal {text : String} (hne : text ≠ "") (h : literal text = true) : Plain text :=
  plain_of_not_specials hne (notMem_specials_of_literal h)

theorem inert_of_literal {text : String} (h : literal text = true) : inert text.toList = true := by
  by_cases hempty : text = ""
  · rw [hempty]
    rfl
  · exact (plain_of_literal hempty h).plain

/-- The section of a keyword. -/
abbrev given (argn : List String) (keyword : String) : List String :=
  part nativeKeywords "default" argn keyword

def targetOf (argn : List String) : String := (given argn "TARGET_NAME").headD ""

def archOf (argn : List String) : String := (given argn "ZCC_ARCH").headD ""

def typeOf (argn : List String) : String := (given argn "TARGET_TYPE").headD "SHARED"

/-- The call asks for the GPU. -/
def asksGpu (argn : List String) : Bool := lowerCase (archOf argn) == "gpu"

/-- The scripts, those of the API last. -/
def scriptsOf (argn : List String) : List String :=
  given argn "ZS_SRC_FILES" ++ given argn "ZS_API_FILES"

/-- **The arguments of a call**: one target, one architecture, a known type or
none, and files that are not taken from a home directory. -/
structure NativeArgs (argn : List String) : Prop where
  plain : ∀ a ∈ argn, Plain a
  no_keyword : ∀ a ∈ argn, a ∉ ["PARENT_SCOPE", "CACHE", "ZS_FILES"]
  target : given argn "TARGET_NAME" = [targetOf argn]
  target_name : literal (targetOf argn) = true ∧ '/' ∉ (targetOf argn).toList
  arch : given argn "ZCC_ARCH" = [archOf argn]
  known : lowerCase (archOf argn) = "gpu" ∨ lowerCase (archOf argn) = "cpu"
  type : given argn "TARGET_TYPE" ∈ [[], ["EXE"], ["SHARED"]]
  files : ∀ f ∈ given argn "CPP_SRC_FILES" ++ scriptsOf argn,
    literal f = true ∧ f.toList.head? ≠ some '~'

/-- Words that no variable may be named by: conditions would read it. -/
def readWords : List String :=
  ["default", ".cu", ".zsall.cu", ".cpp", ".zsall.c", "gpu", "cpu", "EXE", "SHARED", "__file",
    "IS_ABSOLUTE"]

/-- **The scope of a directory** in which nothing is in the way of a call. -/
structure NativeScope (dir : String) (s : Scope) : Prop where
  quiet : Quiet s
  source : literal dir = true
  binary : literal (s.value "CMAKE_CURRENT_BINARY_DIR") = true
  undefined : ∀ w ∈ readWords, s w = none

variable {dir : String} {evalIf : Scope → List String → Except Stop Bool} {s t : Scope}
  {argn N : List String}

theorem NativeScope.agreesOff (h : NativeScope dir s) (ht : AgreesOff N s t)
    (hN : ∀ x ∈ N, ¬ IsRead x ∧ x ∉ readWords ∧ x ≠ "CMAKE_CURRENT_BINARY_DIR") :
    NativeScope dir t := by
  refine ⟨h.quiet.agreesOff ht fun x hx => (hN x hx).1, h.source, ?_, fun w hw => ?_⟩
  · rw [ht.value fun hx => (hN _ hx).2.2 rfl]
    exact h.binary
  · rw [ht w fun hx => (hN w hx).2.1 hw, h.undefined w hw]

/-- An absolute path of literal texts is a plain word. -/
theorem plain_absolutePath {f : String} (hdir : literal dir = true) (hf : literal f = true) :
    Plain (absolutePath dir f) := by
  have hslash : '/' ∉ specials := by decide
  refine plain_of_not_specials ?_ fun c hc => ?_
  · intro hempty
    obtain ⟨cs, hcs⟩ := exists_absolutePath_eq dir f
    rw [hempty] at hcs
    exact nomatch hcs
  · rcases mem_absolutePath hc with rfl | hc | hc
    · exact hslash
    · exact notMem_specials_of_literal hdir c hc
    · exact notMem_specials_of_literal hf c hc

/-- A file of the build directory is a plain word. -/
theorem NativeScope.plain_inBinary (hs : NativeScope dir s) {name ext : String}
    (hname : literal name = true) (hext : literal ext = true) :
    Plain (s.value "CMAKE_CURRENT_BINARY_DIR" ++ "/" ++ name ++ ext) := by
  refine plain_of_literal (fun hempty => ?_) ?_
  · have hslash := (String.append_eq_empty_iff.1 (String.append_eq_empty_iff.1 hempty).1).1
    exact absurd (String.append_eq_empty_iff.1 hslash).2 (by decide)
  · rw [literal_append, literal_append, literal_append, hs.binary, hname, hext]
    decide

theorem NativeArgs.mem {k a : String} (ha : a ∈ given argn k) : a ∈ argn :=
  (sublist_part argn k).subset ha

theorem NativeArgs.listed (h : NativeArgs argn) (hs : NativeScope dir s) :
    ∀ f ∈ given argn "CPP_SRC_FILES" ++ scriptsOf argn, Listed dir f := by
  intro f hf
  refine ⟨?_, (plain_absolutePath hs.source (h.files f hf).1).toWord⟩
  have hmem : f ∈ argn := by
    simp only [scriptsOf, List.mem_append] at hf
    rcases hf with hf | hf | hf <;> exact NativeArgs.mem hf
  exact (h.plain f hmem).toWord

/-! ## Reading the arguments -/

/-- The variables that reading the arguments writes. -/
def readWritten : List String :=
  parseVariables ++ nativeVariables.map Prod.snd ++ putScratch ++ absoluteScratch

/-- **What has been read.** -/
structure NativeRead (dir : String) (s t : Scope) (argn : List String) : Prop where
  target : t.Holds "__target_name" [targetOf argn]
  type : t.Gives "__target_type" (given argn "TARGET_TYPE")
  cpp : t.Holds "__cpp_src_files" ((given argn "CPP_SRC_FILES").map (absolutePath dir))
  scripts : t.Holds "__zs_src_files" ((scriptsOf argn).map (absolutePath dir))
  arch : t.Holds "__zcc_arch" [archOf argn]
  options : t.Holds "__zcc_options" (given argn "ZCC_OPTIONS")
  frame : AgreesOff readWritten s t

theorem keywordCall (hs : NativeScope dir s) (h : NativeArgs argn) :
    KeywordCall s nativeKeywords argn where
  quiet := hs.quiet
  default_undefined := hs.undefined _ (by decide)
  plain := h.plain
  no_keyword := fun a ha hmem => h.no_keyword a ha (by
    simp only [List.mem_cons, List.not_mem_nil, or_false] at hmem ⊢
    exact hmem.elim .inl fun hcache => .inr (.inl hcache))
  plain_keywords := by decide
  nodup := by decide

/-- **The arguments are read**, and the paths made absolute. -/
theorem readNative_returns (evalIf : Scope → List String → Except Stop Bool)
    (hs : NativeScope dir s) (h : NativeArgs argn) :
    Returns (readNative dir evalIf s argn) fun t => NativeRead dir s t argn := by
  have hlisted := h.listed hs
  obtain ⟨u, hu, hparsed, huframe⟩ := parseOptions_returns (keywordCall hs h)
  have hreadable : Readable nativeKeywords nativeVariables := by decide
  obtain ⟨v, hv, hgives, -, hvframe⟩ := getOptions_returns hparsed hreadable
  have hsv : AgreesOff readWritten s v :=
    (huframe.mono (by decide)).trans (hvframe.mono (by decide))
  have hcpp := hgives ("CPP_SRC_FILES", "__cpp_src_files") (by decide)
  have hzs := hgives ("ZS_SRC_FILES", "__zs_src_files") (by decide)
  have hapi := hgives ("ZS_API_FILES", "__zs_api_files") (by decide)
  -- each list is made absolute, and the others wait
  obtain ⟨v₁, hv₁, hcpp₁, hframe₁⟩ := foreachMakeAbsolutePath_returns evalIf
    ((hsv _ (by decide)).trans (hs.undefined "__file" (by decide)))
    ((hsv _ (by decide)).trans (hs.undefined "IS_ABSOLUTE" (by decide))) (by decide) hcpp.toHolds
    fun f hf => hlisted f (by simp [hf])
  have hsv₁ : AgreesOff readWritten s v₁ := hsv.trans (hframe₁.mono (by decide))
  obtain ⟨v₂, hv₂, hzs₂, hframe₂⟩ := foreachMakeAbsolutePath_returns evalIf
    ((hsv₁ _ (by decide)).trans (hs.undefined "__file" (by decide)))
    ((hsv₁ _ (by decide)).trans (hs.undefined "IS_ABSOLUTE" (by decide))) (by decide)
    (hzs.toHolds.agreesOff hframe₁ (by decide)) fun f hf => hlisted f (by simp [scriptsOf, hf])
  have hsv₂ : AgreesOff readWritten s v₂ := hsv₁.trans (hframe₂.mono (by decide))
  obtain ⟨v₃, hv₃, hapi₃, hframe₃⟩ := foreachMakeAbsolutePath_returns evalIf
    ((hsv₂ _ (by decide)).trans (hs.undefined "__file" (by decide)))
    ((hsv₂ _ (by decide)).trans (hs.undefined "IS_ABSOLUTE" (by decide))) (by decide)
    ((hapi.toHolds.agreesOff hframe₁ (by decide)).agreesOff hframe₂ (by decide))
    fun f hf => hlisted f (by simp [scriptsOf, hf])
  have hsv₃ : AgreesOff readWritten s v₃ := hsv₂.trans (hframe₃.mono (by decide))
  let w := v₃.listAppend "__zs_src_files" (v₃.expand "__zs_api_files")
  have hw : AgreesOff ["__zs_src_files"] v₃ w := (AgreesOff.refl _ v₃).listAppend (by simp) _
  -- the options with one value are not touched by the loops
  have hkeep : ∀ {x : String} {es : List String}, x ∉ ["__cpp_src_files", "__zs_src_files",
      "__zs_api_files"] ++ absoluteScratch → v.Gives x es → w.Gives x es := by
    intro x es hx hes
    simp only [List.mem_append, List.mem_cons, List.not_mem_nil, or_false, not_or] at hx
    obtain ⟨⟨hxcpp, hxzs, hxapi⟩, hxscratch⟩ := hx
    refine (((hes.agreesOff hframe₁ ?_).agreesOff hframe₂ ?_).agreesOff hframe₃ ?_).agreesOff hw ?_
    · exact List.not_mem_cons_of_ne_of_not_mem hxcpp hxscratch
    · exact List.not_mem_cons_of_ne_of_not_mem hxzs hxscratch
    · exact List.not_mem_cons_of_ne_of_not_mem hxapi hxscratch
    · simpa using hxzs
  unfold readNative
  rw [hu, ok_bind, hv, ok_bind, hv₁, ok_bind, hv₂, ok_bind, hv₃, ok_bind]
  refine Returns.ok ⟨?_, ?_, ?_, ?_, ?_, ?_, hsv₃.trans (hw.mono (by decide))⟩
  · rw [← h.target]
    exact (hkeep (by decide) (hgives ("TARGET_NAME", "__target_name") (by decide))).toHolds
  · exact hkeep (by decide) (hgives ("TARGET_TYPE", "__target_type") (by decide))
  · exact ((hcpp₁.agreesOff hframe₂ (by decide)).agreesOff hframe₃ (by decide)).agreesOff hw
      (by decide)
  · have happend := (hzs₂.agreesOff hframe₃ (by decide)).listAppend
      ((given argn "ZS_API_FILES").map (absolutePath dir)) hapi₃.words
    rw [← List.map_append, ← hapi₃.expand] at happend
    exact happend
  · rw [← h.arch]
    exact (hkeep (by decide) (hgives ("ZCC_ARCH", "__zcc_arch") (by decide))).toHolds
  · exact (hkeep (by decide) (hgives ("ZCC_OPTIONS", "__zcc_options") (by decide))).toHolds

/-! ## The architecture -/

/-- The architecture, as the macros write it. -/
def archWord (argn : List String) : String := if asksGpu argn then "gpu" else "cpu"

theorem NativeArgs.lowerCase_arch (h : NativeArgs argn) :
    lowerCase (archOf argn) = archWord argn := by
  rw [archWord, asksGpu]
  rcases h.known with hgpu | hcpu
  · rw [hgpu, if_pos (by decide)]
  · rw [hcpu, if_neg (by decide)]

theorem word_archWord (argn : List String) :
    Word (archWord argn) ∧ archWord argn ≠ "(" ∧ archWord argn ∉ unaryWords := by
  rw [archWord]
  split <;> decide

/-- **The architecture is read** in lower case, and compared with two words. -/
theorem lowerArch_returns (h : NativeArgs argn) (hs : s.Holds "__zcc_arch" [archOf argn])
    (hundefined : s "gpu" = none ∧ s "cpu" = none) : Returns (lowerArch s) fun t =>
      Scope.subject (t.expand "__zcc_arch_tolower") = .ok (archWord argn) ∧
      t.strequal (archWord argn) "gpu" = asksGpu argn ∧
      (asksGpu argn = false → t.strequal (archWord argn) "cpu" = true) ∧
      AgreesOff ["__zcc_arch_tolower"] s t := by
  let t := s.assign "__zcc_arch_tolower" (archWord argn)
  have ht : AgreesOff ["__zcc_arch_tolower"] s t := (AgreesOff.refl _ s).assign (by simp) _
  have hlower : lowerArch s = .ok t := by
    rw [lowerArch, hs.expand, List.singleton_append, stringToLower, h.lowerCase_arch]
  have hgpu : t.deref "gpu" = "gpu" := deref_of_eq_none ((ht _ (by decide)).trans hundefined.1)
  have hcpu : t.deref "cpu" = "cpu" := deref_of_eq_none ((ht _ (by decide)).trans hundefined.2)
  refine ⟨t, hlower, ?_, ?_, ?_, ht⟩
  · rw [expand_of_value_eq (value_assign_self _ _ _) (word_archWord argn).1,
      subject_eq (word_archWord argn).2.1 (word_archWord argn).2.2]
  · rw [strequal, archWord]
    cases hask : asksGpu argn with
    | true => rw [if_pos rfl, hgpu]; decide
    | false => rw [if_neg (by decide), hgpu, hcpu]; decide
  · intro hask
    rw [strequal, archWord, hask, if_neg (by decide), hcpu]
    decide

/-- The flags of the two architectures, with the one that a call sets. -/
structure Flagged (s t : Scope) (argn : List String) : Prop where
  gpu : t "ZCC_ARCH_GPU" = if asksGpu argn then some "1" else s "ZCC_ARCH_GPU"
  cpu : t "ZCC_ARCH_CPU" = if asksGpu argn then s "ZCC_ARCH_CPU" else some "1"

theorem Flagged.agreesOff {u : Scope} (h : Flagged s t argn) (hu : AgreesOff N t u)
    (hgpu : "ZCC_ARCH_GPU" ∉ N) (hcpu : "ZCC_ARCH_CPU" ∉ N) : Flagged s u argn :=
  ⟨(hu _ hgpu).trans h.gpu, (hu _ hcpu).trans h.cpu⟩

/-- The variables that choosing the architecture writes. -/
def archWritten : List String :=
  ["__zcc_arch_tolower", "ZCC_ARCH_GPU", "ZCC_ARCH_CPU", "__zcc_options"]

theorem chooseArch_returns (macroName : String) (h : NativeArgs argn)
    (hs : s.Holds "__zcc_arch" [archOf argn]) (hundefined : s "gpu" = none ∧ s "cpu" = none) :
    Returns (chooseArch macroName s) fun t =>
      (∀ options, s.Holds "__zcc_options" options →
        t.Holds "__zcc_options" (options ++ ["--arch", archWord argn])) ∧
      Flagged s t argn ∧ AgreesOff archWritten s t := by
  obtain ⟨u, hu, hword, hgpu, hcpu, hframe⟩ := lowerArch_returns h hs hundefined
  -- the branches differ only in the flag
  have hset : ∀ flag, flag ∈ ["ZCC_ARCH_GPU", "ZCC_ARCH_CPU"] →
      (∀ options, s.Holds "__zcc_options" options →
        ((u.assign flag "1").listAppend "__zcc_options" ["--arch", archWord argn]).Holds
          "__zcc_options" (options ++ ["--arch", archWord argn])) ∧
      ((u.assign flag "1").listAppend "__zcc_options" ["--arch", archWord argn]) flag = some "1" ∧
      AgreesOff ["__zcc_options", flag] u
        ((u.assign flag "1").listAppend "__zcc_options" ["--arch", archWord argn]) := by
    intro flag hflag
    have hne : "__zcc_options" ≠ flag := by
      intro heq
      exact absurd (heq ▸ hflag) (by decide)
    have hassign : AgreesOff [flag] u (u.assign flag "1") :=
      (AgreesOff.refl _ u).assign (by simp) _
    have happend := (AgreesOff.refl ["__zcc_options"] (u.assign flag "1")).listAppend
      (x := "__zcc_options") (by simp) ["--arch", archWord argn]
    refine ⟨fun options hoptions => ?_, ?_, (hassign.mono (by simp)).trans (happend.mono (by simp))⟩
    · have hheld : u.Holds "__zcc_options" options := hoptions.agreesOff hframe (by decide)
      refine (hheld.agreesOff hassign (by simpa using hne)).listAppend _ fun w hw => ?_
      rw [List.mem_cons, List.mem_singleton] at hw
      rcases hw with rfl | rfl
      · decide
      · exact (word_archWord argn).1
    · rw [happend flag (by simpa using hne.symm), assign_self]
  unfold chooseArch
  rw [hu, ok_bind, hword, ok_bind, hgpu]
  cases hask : asksGpu argn with
  | true =>
    obtain ⟨hheld', hflag, hframe'⟩ := hset "ZCC_ARCH_GPU" (by decide)
    rw [archWord, hask, if_pos rfl] at hheld' hflag hframe'
    refine Returns.ok ⟨?_, ⟨?_, ?_⟩, (hframe.mono (by decide)).trans (hframe'.mono (by decide))⟩
    · rw [archWord, hask, if_pos rfl]
      exact hheld'
    · rw [if_pos hask]
      exact hflag
    · rw [if_pos hask, hframe' _ (by decide), hframe _ (by decide)]
  | false =>
    obtain ⟨hheld', hflag, hframe'⟩ := hset "ZCC_ARCH_CPU" (by decide)
    rw [if_neg Bool.false_ne_true, if_pos (hcpu hask)]
    rw [archWord, hask, if_neg Bool.false_ne_true] at hheld' hflag hframe'
    have hnot : ¬ asksGpu argn = true := by rw [hask]; exact Bool.false_ne_true
    refine Returns.ok ⟨?_, ⟨?_, ?_⟩, (hframe.mono (by decide)).trans (hframe'.mono (by decide))⟩
    · rw [archWord, if_neg hnot]
      exact hheld'
    · rw [if_neg hnot, hframe' _ (by decide), hframe _ (by decide)]
    · rw [if_neg hnot]
      exact hflag

/-- **The type is filled in**, for a call without one. -/
theorem defaultType_holds (h : NativeArgs argn)
    (hs : s.Gives "__target_type" (given argn "TARGET_TYPE")) :
    (defaultType s).Holds "__target_type" [typeOf argn] ∧
      AgreesOff ["__target_type"] s (defaultType s) := by
  unfold defaultType
  have htype := h.type
  simp only [List.mem_cons, List.not_mem_nil, or_false] at htype
  by_cases hnil : given argn "TARGET_TYPE" = []
  · have hnone : ¬ (s "__target_type").isSome = true := fun hsome =>
      (hs.isSome_iff.1 hsome) hnil
    have hheld : (s.assign "__target_type" (joined ["SHARED"])).Holds "__target_type" ["SHARED"] :=
      Holds.of_assign (by decide)
    rw [joined_singleton] at hheld
    rw [if_neg hnone, typeOf, hnil]
    exact ⟨hheld, (AgreesOff.refl _ s).assign (by simp) _⟩
  · rw [if_pos (hs.isSome_iff.2 hnil)]
    refine ⟨?_, AgreesOff.refl _ s⟩
    have hone : given argn "TARGET_TYPE" = [typeOf argn] := by
      rw [typeOf]
      rcases htype with htype | htype | htype
      · exact absurd htype hnil
      · rw [htype]; rfl
      · rw [htype]; rfl
    rw [← hone]
    exact hs.toHolds

/-- **What `ZS2OPT_ALL` is called with.** -/
structure NativeReady (dir : String) (s t : Scope) (argn : List String) : Prop where
  target : t.Holds "__target_name" [targetOf argn]
  type : t.Holds "__target_type" [typeOf argn]
  cpp : t.Holds "__cpp_src_files" ((given argn "CPP_SRC_FILES").map (absolutePath dir))
  scripts : t.Holds "__zs_src_files" ((scriptsOf argn).map (absolutePath dir))
  arch : t.Holds "__zcc_arch" [archOf argn]
  options : t.Holds "__zcc_options" (given argn "ZCC_OPTIONS" ++ ["--arch", archWord argn])
  flagged : Flagged s t argn
  frame : AgreesOff (readWritten ++ archWritten) s t

theorem NativeRead.ready (macroName : String) (hs : NativeScope dir s) (h : NativeArgs argn)
    (ht : NativeRead dir s t argn) : Returns (chooseArch macroName t) fun u =>
      NativeReady dir s (defaultType u) argn := by
  have hundefined : t "gpu" = none ∧ t "cpu" = none :=
    ⟨(ht.frame _ (by decide)).trans (hs.undefined _ (by decide)),
      (ht.frame _ (by decide)).trans (hs.undefined _ (by decide))⟩
  refine (chooseArch_returns macroName h ht.arch hundefined).mono fun u hu => ?_
  obtain ⟨hwritten, hflagged, hframe⟩ := hu
  have hoptions := hwritten _ ht.options
  obtain ⟨htype, hdefault⟩ := defaultType_holds h (ht.type.agreesOff hframe (by decide))
  have hkeep : ∀ {x : String} {es : List String}, x ∉ archWritten → x ≠ "__target_type" →
      t.Holds x es → (defaultType u).Holds x es := fun hx hne hes =>
    (hes.agreesOff hframe hx).agreesOff hdefault (by simpa using hne)
  have hflags : Flagged s u argn := by
    refine ⟨hflagged.gpu.trans ?_, hflagged.cpu.trans ?_⟩
    · rw [ht.frame "ZCC_ARCH_GPU" (by decide)]
    · rw [ht.frame "ZCC_ARCH_CPU" (by decide)]
  exact {
    target := hkeep (by decide) (by decide) ht.target
    type := htype
    cpp := hkeep (by decide) (by decide) ht.cpp
    scripts := hkeep (by decide) (by decide) ht.scripts
    arch := hkeep (by decide) (by decide) ht.arch
    options := hoptions.agreesOff hdefault (by decide)
    flagged := hflags.agreesOff hdefault (by decide) (by decide)
    frame := ((ht.frame.mono (by decide)).trans (hframe.mono (by decide))).trans
      (hdefault.mono (by decide)) }

end Zscript

end Supercell
