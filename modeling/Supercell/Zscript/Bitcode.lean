import Supercell.Zscript.Archive
import Supercell.Zscript.NativeCalls
import Supercell.Zscript.Sources

/-!
# Bitcode from scripts

`UsingZcc.cmake`: `TARGET_ADD_ZSCRIPT` adds scripts to a module, and has
`ZSCRIPT_TO_BC` register the rule that compiles them. Both read their arguments
by the same keywords. The architecture is appended to `__zcc_options`, but the
command line is made of `__zs_options`.
-/

namespace Supercell

namespace Zscript

open CMake CMake.Scope Hashmap Options Sections

/-! ## `ZSCRIPT_TO_BC` -/

def toBcKeywords : List String := ["ZS_SRC_FILES", "ZS_API_FILES", "ZCC_OPTIONS", "ZCC_ARCH"]

/-- The options, and the variables they are read into. -/
def toBcVariables : List (String × String) :=
  [("ZS_SRC_FILES", "__zs_src_files"), ("ZS_API_FILES", "__zs_api_files"),
    ("ZCC_OPTIONS", "__zs_options"), ("ZCC_ARCH", "__zcc_arch")]

/-- The scripts are for the CPU unless an architecture is given. -/
def defaultArch (s : Scope) : Scope :=
  if (s "__zcc_arch").isSome then s else s.assign "__zcc_arch" "cpu"

/-- One source is written with its directory. -/
def sourceAbsRound (s : Scope) : Except Stop Scope := do
  if isAbsolute (← Scope.word [s.value "arg"]) then
    return s.listAppend "__zs_src_abs_files" [s.value "arg"]
  else
    return s.listAppend "__zs_src_abs_files"
      [s.value "CMAKE_CURRENT_SOURCE_DIR" ++ "/" ++ s.value "arg"]

/-- The rule that compiles the scripts. -/
def toBcRule (s : Scope) (bcPath : List String) : BuildRule :=
  .custom (addCustomCommand ("OUTPUT" :: bcPath ++
    ("DEPENDS" :: (s.expand "__zs_src_files" ++ s.expand "__zs_api_files") ++
      ("DEPENDS" :: s.expand "ZCC_BC" ++
        "COMMAND" :: (s.expand "ZCC_BC" ++ s.expand "__zs_options" ++
          s.expand "__zs_src_abs_files" ++ s.expand "__zs_api_files" ++ "-o" :: bcPath)))))

/-- **`ZSCRIPT_TO_BC`**. -/
def zscriptToBc (s : Scope) (bcPath : String) (argn : List String) :
    Except Stop (Scope × List BuildRule) := do
  let s ← parseOptions s toBcKeywords argn
  let s ← getOptions s toBcVariables
  let s := defaultArch s
  let s := s.unset "__zs_src_abs_files"
  let s ← foreach s "arg" (s.expand "__zs_src_files") sourceAbsRound
  let s ← chooseArch "ZSCRIPT_TO_BC" s
  return (s, [toBcRule s (← s.evaluate bcPath)])

/-! ## `TARGET_ADD_ZSCRIPT` -/

def addZscriptKeywords : List String :=
  ["ZS_API_FILES", "ZCC_OPTIONS", "ZS_SRC_FILES", "ZCC_ARCH"]

/-- The options, and the variables they are read into. -/
def addZscriptVariables : List (String × String) :=
  [("ZS_SRC_FILES", "__zs_src_files"), ("ZS_API_FILES", "__zs_api_files"),
    ("ZCC_ARCH", "__zcc_arch"), ("ZCC_OPTIONS", "__zs_options")]

/-- `${CMAKE_CURRENT_BINARY_DIR}/${TGT}.tmp.bc`. -/
def tmpBc (s : Scope) (tgt : String) : String :=
  s.value "CMAKE_CURRENT_BINARY_DIR" ++ "/" ++ tgt ++ ".tmp.bc"

/-- The arguments that are handed on to `ZSCRIPT_TO_BC`. -/
def toBcArguments (s : Scope) : List String :=
  "ZS_SRC_FILES" :: s.expand "__zs_src_files" ++ ("ZS_API_FILES" :: s.expand "__zs_api_files" ++
    ("ZCC_OPTIONS" :: s.expand "__zs_options" ++ "ZCC_ARCH" :: s.expand "__zcc_arch"))

/-- **`TARGET_ADD_ZSCRIPT`**: the rules for the scripts, and the archive that is
linked to the module. -/
def targetAddZscript (s : Scope) (tgt : String) (argn : List String) :
    Except Stop (Scope × List BuildRule × LinkedModule) := do
  let s ← parseOptions s addZscriptKeywords argn
  let s ← getOptions s addZscriptVariables
  let s := defaultArch s
  let tgt ← s.evaluateQuoted tgt
  match pieces (tmpBc s tgt) ++ toBcArguments s with
  | [] => .error (.rejected "ZSCRIPT_TO_BC")
  | bcPath :: args =>
    let (s, rules) ← zscriptToBc s bcPath args
    let linked ← targetAddLlvmbc s tgt (tmpBc s tgt)
    return (s.assign "output_static_library" linked.library, rules, linked)

/-! ## What is asked for -/

variable {dir path tgt : String} {s t : Scope} {argn asked keywords done : List String}

/-- **Arguments for bitcode** that give the scripts, the options and the
architecture of a call for native code. -/
structure BitcodeArgs (keywords argn asked : List String) : Prop where
  plain : ∀ a ∈ argn, Plain a
  no_keyword : ∀ a ∈ argn, a ∉ ["PARENT_SCOPE", "CACHE"]
  sections : ∀ k ∈ keywords, part keywords "default" argn k = given asked k

/-- The words of the compiler's command. -/
def bitcodeWords (s : Scope) (path : String) (asked : List String) : List String :=
  s.expand "ZCC_BC" ++ given asked "ZCC_OPTIONS" ++
    (given asked "ZS_SRC_FILES").map (inSource s) ++ given asked "ZS_API_FILES" ++ ["-o", path]

/-- The rule that a call registers. -/
def bitcodeRule (s : Scope) (path : String) (asked : List String) : BuildRule :=
  .custom (addCustomCommand (["OUTPUT", path] ++ ("DEPENDS" :: scriptsOf asked ++
    ("DEPENDS" :: s.expand "ZCC_BC" ++ "COMMAND" :: bitcodeWords s path asked))))

theorem bitcodeRule_congr (hzcc : t.value "ZCC_BC" = s.value "ZCC_BC")
    (hdir : t.value "CMAKE_CURRENT_SOURCE_DIR" = s.value "CMAKE_CURRENT_SOURCE_DIR") :
    bitcodeRule t path asked = bitcodeRule s path asked := by
  rw [bitcodeRule, bitcodeRule, bitcodeWords, bitcodeWords, Scope.expand, Scope.expand, hzcc,
    inSource_congr hdir]

/-! ## Reading the arguments -/

theorem BitcodeArgs.keywordCall (hs : NativeScope dir s) (h : BitcodeArgs keywords argn asked)
    (hkeywords : ∀ k ∈ keywords, Plain k) (hnodup : ("default" :: keywords).Nodup) :
    KeywordCall s keywords argn where
  quiet := hs.quiet
  default_undefined := hs.undefined _ (by decide)
  plain := h.plain
  no_keyword := h.no_keyword
  plain_keywords := hkeywords
  nodup := hnodup

/-- **The arguments are read**, section by section. -/
theorem BitcodeArgs.read (options : List (String × String)) (hs : NativeScope dir s)
    (h : BitcodeArgs keywords argn asked)
    (hkeywords : ∀ k ∈ keywords, Plain k) (hnodup : ("default" :: keywords).Nodup)
    (hoptions : Readable keywords options) :
    ∃ u v, parseOptions s keywords argn = .ok u ∧ getOptions u options = .ok v ∧
      (∀ o ∈ options, v.Gives o.2 (given asked o.1)) ∧
      AgreesOff (parseVariables ++ options.map Prod.snd ++ putScratch) s v := by
  obtain ⟨u, hu, hparsed, huframe⟩ := parseOptions_returns (h.keywordCall hs hkeywords hnodup)
  obtain ⟨v, hv, hgives, -, hvframe⟩ := getOptions_returns hparsed hoptions
  refine ⟨u, v, hu, hv, fun o ho => ?_, (huframe.mono ?_).trans (hvframe.mono ?_)⟩
  · rw [← h.sections o.1 (hoptions.mem o ho)]
    exact hgives o ho
  · intro x hx
    exact List.mem_append_left _ (List.mem_append_left _ hx)
  · intro x hx
    rw [List.append_assoc]
    exact List.mem_append_right _ hx

/-- An architecture that is given stays. -/
theorem defaultArch_eq (h : NativeArgs asked) (hs : s.Gives "__zcc_arch" (given asked "ZCC_ARCH")) :
    defaultArch s = s := by
  rw [defaultArch, if_pos (hs.isSome_iff.2 (by rw [h.arch]; exact List.cons_ne_nil _ _))]

/-! ## The rule -/

/-- The variables that the loop over the sources writes. -/
def sourceAbsWritten : List String := ["arg", "__zs_src_abs_files"]

/-- **One source is written.** -/
theorem sourceAbsRound_returns {f : String}
    (hclosed : Closed (s.value "CMAKE_CURRENT_SOURCE_DIR")) (hf : Word f) (hparen : f ≠ "(")
    (ht : AgreesOff sourceAbsWritten s t)
    (hdone : t.Holds "__zs_src_abs_files" (done.map (inSource s))) :
    Returns (sourceAbsRound (t.assign "arg" f)) fun u =>
      u.Holds "__zs_src_abs_files" ((done ++ [f]).map (inSource s)) ∧
        AgreesOff sourceAbsWritten s u := by
  let u := t.assign "arg" f
  have htu : AgreesOff ["arg"] t u := (AgreesOff.refl _ t).assign (by simp) _
  have hsu : AgreesOff sourceAbsWritten s u := ht.trans (htu.mono (by decide))
  have hvalue : u.value "arg" = f := value_assign_self _ _ _
  have hwritten : ∀ w ∈ [inSource s f], Word w := fun w hw =>
    List.mem_singleton.1 hw ▸ word_inSource hclosed hf
  have hnext : (u.listAppend "__zs_src_abs_files" [inSource s f]).Holds "__zs_src_abs_files"
        ((done ++ [f]).map (inSource s)) ∧
      AgreesOff sourceAbsWritten s (u.listAppend "__zs_src_abs_files" [inSource s f]) := by
    constructor
    · rw [List.map_append, List.map_singleton]
      exact (hdone.agreesOff htu (by decide)).listAppend _ hwritten
    · exact hsu.trans ((AgreesOff.refl _ u).listAppend (by decide) _)
  unfold sourceAbsRound
  rw [show t.assign "arg" f = u from rfl, hvalue, Scope.word, if_neg hparen, ok_bind]
  by_cases habs : isAbsolute f = true
  · rw [if_pos habs]
    rw [inSource, if_pos habs] at hnext
    exact Returns.ok hnext
  · rw [if_neg habs, hsu.value (by decide)]
    rw [inSource, if_neg habs] at hnext
    exact Returns.ok hnext

/-- **The sources are written** one after the other. -/
theorem sourceAbs_foreach_returns {files : List String}
    (hclosed : Closed (s.value "CMAKE_CURRENT_SOURCE_DIR"))
    (hfiles : ∀ f ∈ files, Word f ∧ f ≠ "(") (hempty : s.Holds "__zs_src_abs_files" []) :
    Returns (foreach s "arg" files sourceAbsRound) fun t =>
      t.Holds "__zs_src_abs_files" (files.map (inSource s)) ∧ AgreesOff sourceAbsWritten s t := by
  refine foreach_returns (fun done t => t.Holds "__zs_src_abs_files" (done.map (inSource s)) ∧
    AgreesOff sourceAbsWritten s t) ⟨hempty, AgreesOff.refl _ s⟩ ?_ ?_
  · intro done f rest t hitems ht
    have hf := hfiles f (by rw [hitems]; simp)
    exact sourceAbsRound_returns hclosed hf.1 hf.2 ht.2 ht.1
  · intro t ht
    have harg : AgreesOff ["arg"] t (t.assign "arg" (s.value "arg")) :=
      (AgreesOff.refl _ t).assign (by simp) _
    exact ⟨ht.1.agreesOff harg (by decide), ht.2.trans (harg.mono (by decide))⟩

/-- The variables that `ZSCRIPT_TO_BC` writes. -/
def toBcWritten : List String :=
  parseVariables ++ toBcVariables.map Prod.snd ++ putScratch ++ sourceAbsWritten ++ archWritten

/-- **`ZSCRIPT_TO_BC` registers one rule.** The architecture is not in it. -/
theorem zscriptToBc_returns (hs : NativeScope dir s)
    (hclosed : Closed (s.value "CMAKE_CURRENT_SOURCE_DIR")) (hasked : NativeArgs asked)
    (hparen : "(" ∉ given asked "ZS_SRC_FILES") (h : BitcodeArgs toBcKeywords argn asked)
    (hpath : Plain path) :
    Returns (zscriptToBc s path argn) fun r =>
      r.2 = [bitcodeRule s path asked] ∧ AgreesOff toBcWritten s r.1 := by
  obtain ⟨u, v, hu, hv, hgives, hsv⟩ := h.read toBcVariables hs (by decide) (by decide) (by decide)
  have hsrc := (hgives ("ZS_SRC_FILES", "__zs_src_files") (by decide)).toHolds
  have hapi := (hgives ("ZS_API_FILES", "__zs_api_files") (by decide)).toHolds
  have hopt := (hgives ("ZCC_OPTIONS", "__zs_options") (by decide)).toHolds
  have harch := hgives ("ZCC_ARCH", "__zcc_arch") (by decide)
  dsimp only at hsrc hapi hopt harch
  let w := v.unset "__zs_src_abs_files"
  have hvw : AgreesOff ["__zs_src_abs_files"] v w := (AgreesOff.refl _ v).unset (by simp)
  have hsw : AgreesOff toBcWritten s w := (hsv.mono (by decide)).trans (hvw.mono (by decide))
  have hdirw : w.value "CMAKE_CURRENT_SOURCE_DIR" = s.value "CMAKE_CURRENT_SOURCE_DIR" :=
    hsw.value (by decide)
  have hfiles : ∀ f ∈ given asked "ZS_SRC_FILES", Word f ∧ f ≠ "(" := fun f hf =>
    ⟨(hasked.plain f (NativeArgs.mem hf)).toWord, fun heq => hparen (heq ▸ hf)⟩
  obtain ⟨x, hx, hwritten, hwx⟩ := sourceAbs_foreach_returns (hdirw ▸ hclosed) hfiles
    Holds.of_unset
  have hvx : AgreesOff sourceAbsWritten v x := (hvw.mono (by decide)).trans hwx
  have hsx : AgreesOff toBcWritten s x := hsw.trans (hwx.mono (by decide))
  have hundefined : x "gpu" = none ∧ x "cpu" = none :=
    ⟨(hsx _ (by decide)).trans (hs.undefined _ (by decide)),
      (hsx _ (by decide)).trans (hs.undefined _ (by decide))⟩
  have harchx : x.Holds "__zcc_arch" [archOf asked] := by
    rw [← hasked.arch]
    exact harch.toHolds.agreesOff hvx (by decide)
  -- the architecture goes into an option list that the rule does not read
  obtain ⟨y, hy, -, -, hxy⟩ := chooseArch_returns "ZSCRIPT_TO_BC" hasked harchx hundefined
  have hvy : AgreesOff (sourceAbsWritten ++ archWritten) v y :=
    (hvx.mono (by decide)).trans (hxy.mono (by decide))
  have hsy : AgreesOff toBcWritten s y := hsx.trans (hxy.mono (by decide))
  unfold zscriptToBc
  rw [hu, ok_bind, hv, ok_bind]
  dsimp only
  rw [defaultArch_eq hasked harch, show v.unset "__zs_src_abs_files" = w from rfl,
    (hsrc.agreesOff hvw (by decide)).expand, hx, ok_bind, hy, ok_bind, evaluate_plain y hpath,
    ok_bind]
  refine Returns.ok ⟨?_, hsy⟩
  have hzcc : y.expand "ZCC_BC" = s.expand "ZCC_BC" := by
    rw [Scope.expand, Scope.expand, hsy.value (by decide)]
  rw [toBcRule, bitcodeRule, bitcodeWords, scriptsOf, hzcc, (hsrc.agreesOff hvy (by decide)).expand,
    (hapi.agreesOff hvy (by decide)).expand, (hopt.agreesOff hvy (by decide)).expand,
    (hwritten.agreesOff hxy (by decide)).expand, inSource_congr hdirw]

/-! ## A whole call -/

theorem NativeArgs.plain_section (hasked : NativeArgs asked) {k a : String}
    (ha : a ∈ given asked k) : Plain a ∧ a ∉ ["PARENT_SCOPE", "CACHE"] := by
  refine ⟨hasked.plain a (NativeArgs.mem ha), fun hmem => ?_⟩
  have hsub : ∀ w ∈ ["PARENT_SCOPE", "CACHE"], w ∈ ["PARENT_SCOPE", "CACHE", "ZS_FILES"] := by
    decide
  exact hasked.no_keyword a (NativeArgs.mem ha) (hsub a hmem)

/-- **The sections are handed on** as they are. -/
theorem NativeArgs.handedOn (hasked : NativeArgs asked) : BitcodeArgs toBcKeywords
    ("ZS_SRC_FILES" :: given asked "ZS_SRC_FILES" ++
      ("ZS_API_FILES" :: given asked "ZS_API_FILES" ++
        ("ZCC_OPTIONS" :: given asked "ZCC_OPTIONS" ++
          "ZCC_ARCH" :: given asked "ZCC_ARCH"))) asked := by
  have hwords : ∀ a ∈ "ZS_SRC_FILES" :: given asked "ZS_SRC_FILES" ++
      ("ZS_API_FILES" :: given asked "ZS_API_FILES" ++
        ("ZCC_OPTIONS" :: given asked "ZCC_OPTIONS" ++ "ZCC_ARCH" :: given asked "ZCC_ARCH")),
      Plain a ∧ a ∉ ["PARENT_SCOPE", "CACHE"] := by
    intro a ha
    simp only [List.mem_append, List.mem_cons] at ha
    rcases ha with (rfl | ha) | (rfl | ha) | (rfl | ha) | rfl | ha
    · decide
    · exact hasked.plain_section ha
    · decide
    · exact hasked.plain_section ha
    · decide
    · exact hasked.plain_section ha
    · decide
    · exact hasked.plain_section ha
  have hnot : ∀ {k a : String}, a ∈ given asked k → a ∉ toBcKeywords := by
    intro k a ha hmem
    have hsub : ∀ w ∈ toBcKeywords, w ∈ nativeKeywords := by decide
    exact notMem_keywords_of_mem_part ha (hsub a hmem)
  refine ⟨fun a ha => (hwords a ha).1, fun a ha => (hwords a ha).2, fun k hk => ?_⟩
  -- one section behind another, as they are read
  have hassoc : "ZS_SRC_FILES" :: given asked "ZS_SRC_FILES" ++
      ("ZS_API_FILES" :: given asked "ZS_API_FILES" ++
        ("ZCC_OPTIONS" :: given asked "ZCC_OPTIONS" ++ "ZCC_ARCH" :: given asked "ZCC_ARCH")) =
      ((([] ++ "ZS_SRC_FILES" :: given asked "ZS_SRC_FILES") ++
        "ZS_API_FILES" :: given asked "ZS_API_FILES") ++
        "ZCC_OPTIONS" :: given asked "ZCC_OPTIONS") ++
        "ZCC_ARCH" :: given asked "ZCC_ARCH" := by simp
  rw [hassoc, (part_append_cons (by decide) _ fun _ => hnot).2,
    (part_append_cons (by decide) _ fun _ => hnot).2,
    (part_append_cons (by decide) _ fun _ => hnot).2,
    (part_append_cons (by decide) _ fun _ => hnot).2, part_nil, List.nil_append]
  simp only [toBcKeywords, List.mem_cons, List.not_mem_nil, or_false] at hk
  rcases hk with rfl | rfl | rfl | rfl <;> simp

/-- The archive is refused for no name without a slash. -/
theorem targetAddLlvmbc_returns (hliteral : literal tgt = true) (hslash : '/' ∉ tgt.toList)
    (s : Scope) (hpath : inert path.toList = true) :
    Returns (targetAddLlvmbc s tgt path) fun _ => True := by
  have hbackslash : '\\' ∉ tgt.toList := fun hmem =>
    notMem_specials_of_literal hliteral _ hmem (by decide)
  have hname : ¬ ('/' ∈ (tgt ++ "-bc-static").toList ∨ '\\' ∈ (tgt ++ "-bc-static").toList) := by
    rw [String.toList_append, List.mem_append, List.mem_append]
    rintro ((hmem | hmem) | hmem | hmem)
    · exact hslash hmem
    · exact absurd hmem (by decide)
    · exact hbackslash hmem
    · exact absurd hmem (by decide)
  have hstatic : literal (tgt ++ "-bc-static") = true := by
    rw [literal_append, hliteral]
    rfl
  unfold targetAddLlvmbc llvmbcToX86 addCustomTarget objectTarget
  simp only [(s.evaluate_inert (inert_of_literal hliteral)).2, (s.evaluate_inert hpath).2,
    (s.evaluate_inert (inert_of_literal hstatic)).2, ok_bind]
  rw [if_neg hname]
  exact Returns.ok trivial

/-- **`TARGET_ADD_ZSCRIPT` registers one rule** for the scripts. -/
theorem targetAddZscript_returns (hs : NativeScope dir s)
    (hclosed : Closed (s.value "CMAKE_CURRENT_SOURCE_DIR")) (hasked : NativeArgs asked)
    (hparen : "(" ∉ given asked "ZS_SRC_FILES") (h : BitcodeArgs addZscriptKeywords argn asked)
    (htgt : literal tgt = true) (hslash : '/' ∉ tgt.toList) :
    Returns (targetAddZscript s tgt argn) fun r =>
      r.2.1 = [bitcodeRule s (tmpBc s tgt) asked] := by
  obtain ⟨u, v, hu, hv, hgives, hsv⟩ := h.read addZscriptVariables hs (by decide) (by decide)
    (by decide)
  have hsrc := (hgives ("ZS_SRC_FILES", "__zs_src_files") (by decide)).toHolds
  have hapi := (hgives ("ZS_API_FILES", "__zs_api_files") (by decide)).toHolds
  have hopt := (hgives ("ZCC_OPTIONS", "__zs_options") (by decide)).toHolds
  have harch := hgives ("ZCC_ARCH", "__zcc_arch") (by decide)
  dsimp only at hsrc hapi hopt harch
  have hscope : NativeScope dir v := hs.agreesOff hsv (by decide)
  have hpath : tmpBc v tgt = tmpBc s tgt := by
    rw [tmpBc, tmpBc, hsv.value (by decide)]
  have hplain : Plain (tmpBc s tgt) := hs.plain_inBinary htgt (by decide)
  -- what the inner macro is called with
  have hargs : toBcArguments v = "ZS_SRC_FILES" :: given asked "ZS_SRC_FILES" ++
      ("ZS_API_FILES" :: given asked "ZS_API_FILES" ++
        ("ZCC_OPTIONS" :: given asked "ZCC_OPTIONS" ++
          "ZCC_ARCH" :: given asked "ZCC_ARCH")) := by
    rw [toBcArguments, hsrc.expand, hapi.expand, hopt.expand, harch.toHolds.expand]
  have hdirv : v.value "CMAKE_CURRENT_SOURCE_DIR" = s.value "CMAKE_CURRENT_SOURCE_DIR" :=
    hsv.value (by decide)
  obtain ⟨⟨w, rules⟩, hw, hrules, hvw⟩ := zscriptToBc_returns hscope (hdirv ▸ hclosed) hasked hparen
    hasked.handedOn hplain
  have hrule : bitcodeRule v (tmpBc s tgt) asked = bitcodeRule s (tmpBc s tgt) asked :=
    bitcodeRule_congr (hsv.value (by decide)) hdirv
  have hpathw : tmpBc w tgt = tmpBc s tgt := by
    rw [← hpath, tmpBc, tmpBc, hvw.value (by decide)]
  obtain ⟨linked, hlinked, -⟩ := targetAddLlvmbc_returns htgt hslash w (hpathw ▸ hplain.plain)
  unfold targetAddZscript
  rw [hu, ok_bind, hv, ok_bind]
  dsimp only
  rw [defaultArch_eq hasked harch, (v.evaluate_inert (inert_of_literal htgt)).2, ok_bind, hpath,
    hargs, pieces_word hplain.toWord, List.singleton_append]
  dsimp only
  rw [hw, ok_bind]
  dsimp only
  rw [hlinked, ok_bind]
  refine Returns.ok ?_
  rw [← hrule]
  exact hrules

end Zscript

end Supercell
