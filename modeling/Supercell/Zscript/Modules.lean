import Supercell.Zscript.ScriptRules

/-!
# The modules

What `ZS_2_NATIVE_CODE` registers for one target, and what it leaves behind,
from what it finds in the scope: the generated files of the calls before it, and
their flag for the GPU. The branch for the GPU dispatches the sources by their
extensions.
-/

namespace Supercell

namespace Zscript

open CMake CMake.Scope Hashmap Options Sections

variable {dir : String} {evalIf : Scope → List String → Except Stop Bool} {s t : Scope}
  {argn : List String}

/-! ## The module -/

/-- The files that are dispatched to the CUDA compiler. -/
def cudaFiles (files : List String) : List String :=
  files.filter fun f => extension f == ".cu" || extension f == ".zsall.cu"

/-- The files that are dispatched to the C++ compiler. -/
def cppFiles (files : List String) : List String :=
  files.filter fun f => extension f == ".cpp" || extension f == ".zsall.c"

/-- The rule for a module of a known type. -/
def moduleRule (type target : String) (sources : List String) : BuildRule :=
  if type = "EXE" then .executable [target] sources else .shared [target] sources

/-- The rules for a module of the GPU. -/
def gpuRules (cuda : Bool) (type target : String) (files : List String) : List BuildRule :=
  (if cuda then [.ptx (cudaFiles files), .cudaLibrary [target ++ "-cuda"] (cudaFiles files)]
    else []) ++ [moduleRule type target (cppFiles files), .link [target] [target ++ "-cuda"]]

/-- **The module is registered** under its type. -/
theorem moduleRules_eq {target : String} (h : NativeArgs argn)
    (htype : s.Holds "__target_type" [typeOf argn]) (hname : s.Holds "__target_name" [target])
    (hundefined : s "EXE" = none ∧ s "SHARED" = none) (sources : List String) :
    moduleRules s sources = .ok [moduleRule (typeOf argn) target sources] := by
  have hexe : s.deref "EXE" = "EXE" := deref_of_eq_none hundefined.1
  have hshared : s.deref "SHARED" = "SHARED" := deref_of_eq_none hundefined.2
  have hknown : typeOf argn = "EXE" ∨ typeOf argn = "SHARED" := by
    have htypes := h.type
    simp only [List.mem_cons, List.not_mem_nil, or_false] at htypes
    rw [typeOf]
    rcases htypes with hnil | hone | hone
    · exact .inr (by rw [hnil]; rfl)
    · exact .inl (by rw [hone]; rfl)
    · exact .inr (by rw [hone]; rfl)
  unfold moduleRules moduleRule
  rw [htype.expand, hname.expand]
  rcases hknown with htype' | htype'
  · rw [htype', subject_eq (by decide) (by decide), ok_bind, strequal, hexe,
      if_pos (by decide), if_pos rfl]
    rfl
  · rw [htype', subject_eq (by decide) (by decide), ok_bind, strequal, strequal, hexe, hshared,
      if_neg (by decide), if_pos (by decide), if_neg (by decide)]
    rfl

/-- The variables that the loop over the sources writes. -/
def dispatchWritten : List String :=
  ["arg", "ARG_FILE_EXT", "__split_cuda_src_files", "__split_cpp_src_files"]

/-- What stays true from source to source. -/
structure Dispatched (s t : Scope) (done : List String) : Prop where
  cuda : t.Holds "__split_cuda_src_files" (cudaFiles done)
  cpp : t.Holds "__split_cpp_src_files" (cppFiles done)
  frame : AgreesOff dispatchWritten s t

/-- The extensions that the dispatch knows name no variable. -/
def Extensionless (s : Scope) : Prop :=
  ∀ w ∈ [".cu", ".zsall.cu", ".cpp", ".zsall.c"], s w = none

/-- **One source is dispatched**, or dropped. -/
theorem dispatchRound_returns {done : List String} {f : String} (hs : Extensionless s)
    (hf : Word f) (ht : Dispatched s t done) :
    Returns (dispatchRound (t.assign "arg" f)) (Dispatched s · (done ++ [f])) := by
  let u := t.assign "arg" f
  let v := u.assign "ARG_FILE_EXT" (extension f)
  have hu : AgreesOff ["arg"] t u := (AgreesOff.refl _ t).assign (by simp) _
  have hv : AgreesOff ["arg", "ARG_FILE_EXT"] t v :=
    (hu.mono (by simp)).trans ((AgreesOff.refl _ u).assign (by simp) _)
  have hcuda := ht.cuda.agreesOff hv (by decide)
  have hcpp := ht.cpp.agreesOff hv (by decide)
  have hframe : AgreesOff dispatchWritten s v := ht.frame.trans (hv.mono (by decide))
  have hexpand : u.expand "arg" = [f] := expand_of_value_eq (value_assign_self _ _ _) hf
  have hvalue : v.value "arg" = f := by
    rw [value_assign_of_ne _ (by decide), value_assign_self]
  -- the extensions that it is compared with are no variables
  have hext : ∀ w ∈ [".cu", ".zsall.cu", ".cpp", ".zsall.c"],
      v.strequal "ARG_FILE_EXT" w = (extension f == w) := by
    intro w hw
    have hnot : ∀ w ∈ [".cu", ".zsall.cu", ".cpp", ".zsall.c"], w ∉ dispatchWritten := by decide
    rw [strequal, deref_of_eq_some (assign_self _ _ _),
      deref_of_eq_none ((hframe w (hnot w hw)).trans (hs w hw))]
  have happend : ∀ x, AgreesOff [x] v (v.listAppend x [f]) := fun x =>
    (AgreesOff.refl _ v).listAppend (by simp) _
  have hword : ∀ w ∈ [f], Word w := fun w hw => List.mem_singleton.1 hw ▸ hf
  have hcudaMore : cudaFiles (done ++ [f]) = cudaFiles done ++
      if extension f == ".cu" || extension f == ".zsall.cu" then [f] else [] := by
    rw [cudaFiles, cudaFiles, List.filter_append]
    split <;> rename_i hif <;> simp [hif]
  have hcppMore : cppFiles (done ++ [f]) = cppFiles done ++
      if extension f == ".cpp" || extension f == ".zsall.c" then [f] else [] := by
    rw [cppFiles, cppFiles, List.filter_append]
    split <;> rename_i hif <;> simp [hif]
  unfold dispatchRound
  simp only [show t.assign "arg" f = u from rfl, hexpand, getFilenameComponent, ok_bind,
    show u.assign "ARG_FILE_EXT" (extension f) = v from rfl, hext ".cu" (by decide),
    hext ".zsall.cu" (by decide), hext ".cpp" (by decide), hext ".zsall.c" (by decide), hvalue]
  -- the two kinds exclude each other
  by_cases hiscuda : (extension f == ".cu" || extension f == ".zsall.cu") = true
  · have hnotcpp : ¬ (extension f == ".cpp" || extension f == ".zsall.c") = true := by
      rw [Bool.or_eq_true, beq_iff_eq, beq_iff_eq] at hiscuda ⊢
      rcases hiscuda with hext' | hext' <;> rw [hext'] <;> decide
    rw [if_pos hiscuda]
    refine Returns.ok ⟨?_, ?_, hframe.trans ((happend _).mono (by decide))⟩
    · rw [hcudaMore, if_pos hiscuda]
      exact hcuda.listAppend _ hword
    · rw [hcppMore, if_neg hnotcpp, List.append_nil]
      exact hcpp.agreesOff (happend _) (by decide)
  · rw [if_neg hiscuda]
    by_cases hiscpp : (extension f == ".cpp" || extension f == ".zsall.c") = true
    · rw [if_pos hiscpp]
      refine Returns.ok ⟨?_, ?_, hframe.trans ((happend _).mono (by decide))⟩
      · rw [hcudaMore, if_neg hiscuda, List.append_nil]
        exact hcuda.agreesOff (happend _) (by decide)
      · rw [hcppMore, if_pos hiscpp]
        exact hcpp.listAppend _ hword
    · -- only a message
      rw [if_neg hiscpp]
      refine Returns.ok ⟨?_, ?_, hframe⟩
      · rw [hcudaMore, if_neg hiscuda, List.append_nil]
        exact hcuda
      · rw [hcppMore, if_neg hiscpp, List.append_nil]
        exact hcpp

/-- **All sources are dispatched**, or dropped. -/
theorem dispatch_foreach_returns {files : List String} (hs : Extensionless s)
    (hfiles : ∀ f ∈ files, Word f) (hcuda : s.Holds "__split_cuda_src_files" [])
    (hcpp : s.Holds "__split_cpp_src_files" []) :
    Returns (foreach s "arg" files dispatchRound) fun t => Dispatched s t files := by
  refine foreach_returns (fun done t => Dispatched s t done) ⟨hcuda, hcpp, AgreesOff.refl _ s⟩ ?_ ?_
  · intro done f rest t hitems ht
    exact dispatchRound_returns hs (hfiles f (by rw [hitems]; simp)) ht
  · intro t ht
    have harg : AgreesOff ["arg"] t (t.assign "arg" (s.value "arg")) :=
      (AgreesOff.refl _ t).assign (by simp) _
    exact ⟨ht.cuda.agreesOff harg (by decide), ht.cpp.agreesOff harg (by decide),
      ht.frame.trans (harg.mono (by decide))⟩

/-- The name of the CUDA module is a word, and none that `set()` takes for its
own. -/
theorem cudaModule_word {target : String} (h : Word target) :
    Word (target ++ "-cuda") ∧ target ++ "-cuda" ≠ "PARENT_SCOPE" := by
  refine ⟨⟨fun hempty => ?_, h.closed.append (by decide)⟩, fun heq => ?_⟩
  · exact absurd (String.append_eq_empty_iff.1 hempty).2 (by decide)
  · have hlast := congrArg (fun text : String => text.toList.getLast?) heq
    simp only [String.toList_append, List.getLast?_append,
      show "-cuda".toList.getLast? = some 'a' by decide, Option.some_or] at hlast
    exact absurd hlast (by decide)

/-- The variables that the branch for the GPU writes. -/
def gpuWritten : List String :=
  dispatchWritten ++ ["ENABLE_EXT_FILTER", "__cpp_src_files", "__cuda_module_name"]

/-- **The branch for the GPU**: the sources and the generated files are
dispatched, and the module made of what has been dispatched. -/
theorem gpuBranch_returns {sources all : List String} (h : NativeArgs argn)
    (hname : s.Holds "__target_name" [targetOf argn])
    (htype : s.Holds "__target_type" [typeOf argn]) (hsources : s.Holds "__cpp_src_files" sources)
    (hall : s.Holds "__zs_all_file" all) (hundefined : ∀ w ∈ readWords, s w = none) :
    Returns (gpuBranch s) fun r =>
      r.1.Holds "__split_cuda_src_files" (cudaFiles (sources ++ all)) ∧
        r.1.Holds "__split_cpp_src_files" (cppFiles (sources ++ all)) ∧
        r.2 = gpuRules (s.truthy "ENABLE_FEATURE_CUDA") (typeOf argn) (targetOf argn)
          (sources ++ all) ∧ AgreesOff gpuWritten s r.1 := by
  let u := s.assign "ENABLE_EXT_FILTER" "TRUE"
  have hu : AgreesOff ["ENABLE_EXT_FILTER"] s u := (AgreesOff.refl _ s).assign (by simp) _
  have hallu : u.expand "__zs_all_file" = all := (hall.agreesOff hu (by decide)).expand
  let v := u.listAppend "__cpp_src_files" all
  have hv : AgreesOff ["__cpp_src_files"] u v := (AgreesOff.refl _ u).listAppend (by simp) _
  have hsourcesv : v.Holds "__cpp_src_files" (sources ++ all) :=
    (hsources.agreesOff hu (by decide)).listAppend all hall.words
  let w := (v.unset "__split_cuda_src_files").unset "__split_cpp_src_files"
  have hw : AgreesOff dispatchWritten v w :=
    ((AgreesOff.refl _ v).unset (by decide)).unset (by decide)
  have hsw : AgreesOff gpuWritten s w :=
    ((hu.mono (by decide)).trans (hv.mono (by decide))).trans (hw.mono (by decide))
  have hexpand : w.expand "__cpp_src_files" = sources ++ all :=
    (hsourcesv.agreesOff hw (by decide)).expand
  have hextensionless : Extensionless w := by
    intro e he
    have hread : ∀ e ∈ [".cu", ".zsall.cu", ".cpp", ".zsall.c"],
        e ∈ readWords ∧ e ∉ gpuWritten := by decide
    exact (hsw e (hread e he).2).trans (hundefined e (hread e he).1)
  -- the loop starts with both lists undefined
  obtain ⟨t, ht, hcuda, hcpp, hframe⟩ := dispatch_foreach_returns hextensionless hsourcesv.words
    (Holds.of_eq_none ((unset_of_ne _ (by decide)).trans (unset_self _ _))) Holds.of_unset
  have hst : AgreesOff gpuWritten s t := hsw.trans (hframe.mono (by decide))
  have hnamet : t.Holds "__target_name" [targetOf argn] := hname.agreesOff hst (by decide)
  -- the name of the CUDA module is set after the loop
  obtain ⟨hmodule, hnotKeyword⟩ := cudaModule_word (hname.words _ List.mem_cons_self)
  have hpieces : pieces (t.value "__target_name" ++ "-cuda") = [targetOf argn ++ "-cuda"] := by
    rw [hnamet.text, joined_singleton, pieces_word hmodule]
  let z := t.assign "__cuda_module_name" (targetOf argn ++ "-cuda")
  have hz : AgreesOff ["__cuda_module_name"] t z := (AgreesOff.refl _ t).assign (by simp) _
  have hsz : AgreesOff gpuWritten s z := hst.trans (hz.mono (by decide))
  have hcudaz := hcuda.agreesOff hz (by decide)
  have hcppz := hcpp.agreesOff hz (by decide)
  have hnamez : z.Holds "__target_name" [targetOf argn] := hnamet.agreesOff hz (by decide)
  have hmodulez : z.expand "__cuda_module_name" = [targetOf argn ++ "-cuda"] :=
    expand_of_value_eq (value_assign_self _ _ _) hmodule
  have hfeature : z.truthy "ENABLE_FEATURE_CUDA" = s.truthy "ENABLE_FEATURE_CUDA" := by
    rw [truthy, truthy, hsz.value (by decide)]
  have hrules := moduleRules_eq h (htype.agreesOff hsz (by decide)) hnamez
    ⟨(hsz _ (by decide)).trans (hundefined _ (by decide)),
      (hsz _ (by decide)).trans (hundefined _ (by decide))⟩ (cppFiles (sources ++ all))
  unfold gpuBranch
  dsimp only
  rw [show s.assign "ENABLE_EXT_FILTER" "TRUE" = u from rfl, hallu,
    show u.listAppend "__cpp_src_files" all = v from rfl,
    show (v.unset "__split_cuda_src_files").unset "__split_cpp_src_files" = w from rfl, hexpand,
    ht, ok_bind, hpieces, set_word t _ hnotKeyword, ok_bind,
    show t.assign "__cuda_module_name" (targetOf argn ++ "-cuda") = z from rfl, hcppz.expand,
    hrules, ok_bind, hcudaz.expand, hmodulez, hnamez.expand, hfeature]
  refine Returns.ok ⟨hcudaz, hcppz, ?_, hsz⟩
  rw [gpuRules, List.append_assoc]
  rfl

/-! ## A whole call -/

/-- The branch for the GPU is taken where this call or one before it has asked
for the GPU. -/
def takesGpu (s : Scope) (argn : List String) : Bool :=
  asksGpu argn || (s "ZCC_ARCH_GPU").isSome

/-- The sources of the module, with the generated files. -/
def sourcesOf (dir : String) (argn all : List String) : List String :=
  (given argn "CPP_SRC_FILES").map (absolutePath dir) ++ all

/-- **What a call registers**, with the generated files of the calls before it. -/
def registered (dir : String) (s : Scope) (argn old : List String) : List BuildRule :=
  optRules (asksGpu argn) (ruleScope dir s argn) ++
    if takesGpu s argn then
      gpuRules (s.truthy "ENABLE_FEATURE_CUDA") (typeOf argn) (targetOf argn)
        (sourcesOf dir argn (old ++ [generated s argn]))
    else
      [moduleRule (typeOf argn) (targetOf argn)
        (old ++ [generated s argn] ++ (given argn "CPP_SRC_FILES").map (absolutePath dir))]

/-- The variables that a call writes. -/
def nativeWritten : List String :=
  readWritten ++ archWritten ++ optAllWritten ++ gpuWritten

/-- **What a call leaves behind**, and what it registers. -/
structure NativeDone (dir : String) (s : Scope) (argn old : List String)
    (r : Scope × List BuildRule) : Prop where
  all : r.1.Holds "__zs_all_file" (old ++ [generated s argn])
  flag : r.1 "ZCC_ARCH_GPU" = if asksGpu argn then some "1" else s "ZCC_ARCH_GPU"
  cuda : takesGpu s argn = true → r.1.Holds "__split_cuda_src_files"
    (cudaFiles (sourcesOf dir argn (old ++ [generated s argn])))
  cpp : takesGpu s argn = true → r.1.Holds "__split_cpp_src_files"
    (cppFiles (sourcesOf dir argn (old ++ [generated s argn])))
  rules : r.2 = registered dir s argn old
  frame : AgreesOff nativeWritten s r.1

/-- A flag that is set holds. -/
theorem ifHolds_of_eq_one {x : String} (h : s x = some "1") : ifHolds evalIf s x = .ok true := by
  have hexpand : s.expand x = ["1"] := expand_of_value_eq (value_of_eq_some h) (by decide)
  rw [ifHolds, hexpand]
  rfl

theorem ifHolds_of_eq_none {x : String} (h : s x = none) : ifHolds evalIf s x = .ok false := by
  have hexpand : s.expand x = [] := by
    rw [Scope.expand, Scope.value, h]
    decide
  rw [ifHolds, hexpand]

/-- **`ZS_2_NATIVE_CODE`**, on what it finds in the scope. -/
theorem zs2NativeCode_returns {old : List String} (hs : NativeScope dir s) (h : NativeArgs argn)
    (hold : s.Holds "__zs_all_file" old)
    (hflag : asksGpu argn = true ∨ s "ZCC_ARCH_GPU" = none ∨ s "ZCC_ARCH_GPU" = some "1") :
    Returns (zs2NativeCode dir evalIf s argn) (NativeDone dir s argn old) := by
  obtain ⟨t, ht, hread⟩ := readNative_returns evalIf hs h
  obtain ⟨u, hu, hready⟩ := hread.ready "ZS_2_NATIVE_CODE" hs h
  have holdu : (defaultType u).Holds "__zs_all_file" old :=
    hold.agreesOff hready.frame (by decide)
  obtain ⟨⟨v, rules⟩, hv, hall, hname, hrules, hframe⟩ := zs2optAll_returns hs h hready holdu
  dsimp only at hall hname hrules hframe
  have hsv : AgreesOff nativeWritten s v :=
    (hready.frame.mono (by decide)).trans (hframe.mono (by decide))
  have hflagged : Flagged s v argn := hready.flagged.agreesOff hframe (by decide) (by decide)
  have hcpp := hready.cpp.agreesOff hframe (by decide)
  have htype := hready.type.agreesOff hframe (by decide)
  -- what the conditions compare with is written by no part of the call
  have hundefined : ∀ w ∈ readWords, v w = none := fun w hw =>
    (hsv w ((by decide : ∀ w ∈ readWords, w ∉ nativeWritten) w hw)).trans (hs.undefined w hw)
  have hfeature : v.truthy "ENABLE_FEATURE_CUDA" = s.truthy "ENABLE_FEATURE_CUDA" := by
    rw [truthy, truthy, hsv.value (by decide)]
  unfold zs2NativeCode
  rw [ht, ok_bind, hu, ok_bind]
  dsimp only
  rw [hv, ok_bind]
  dsimp only
  by_cases htakes : takesGpu s argn = true
  · -- the flag of this call, or of one before it
    have hgpu : v "ZCC_ARCH_GPU" = some "1" := by
      rw [hflagged.gpu]
      split
      · rfl
      · rename_i hask
        rw [takesGpu, Bool.or_eq_true] at htakes
        have hsome := htakes.resolve_left hask
        refine (hflag.resolve_left hask).resolve_left fun hnone => ?_
        rw [hnone] at hsome
        cases hsome
    obtain ⟨⟨w, gpu⟩, hw, hcudaw, hcppw, hgpuRules, hwframe⟩ :=
      gpuBranch_returns h hname htype hcpp hall hundefined
    dsimp only at hcudaw hcppw hgpuRules hwframe
    rw [ifHolds_of_eq_one hgpu, ok_bind, if_pos rfl, hw, ok_bind]
    refine Returns.ok ⟨?_, ?_, fun _ => hcudaw, fun _ => hcppw, ?_, ?_⟩
    · exact hall.agreesOff hwframe (by decide)
    · exact (hwframe "ZCC_ARCH_GPU" (by decide)).trans hflagged.gpu
    · rw [registered, if_pos htakes, hrules, hgpuRules, hfeature]
      rfl
    · exact hsv.trans (hwframe.mono (by decide))
  · -- no call so far has asked for the GPU
    have hask : asksGpu argn = false ∧ s "ZCC_ARCH_GPU" = none := by
      rw [takesGpu, Bool.or_eq_true, not_or, Bool.not_eq_true, Option.not_isSome_iff_eq_none]
        at htakes
      exact htakes
    have hgpu : v "ZCC_ARCH_GPU" = none := by
      rw [hflagged.gpu, hask.1, if_neg Bool.false_ne_true, hask.2]
    have hcpu : v "ZCC_ARCH_CPU" = some "1" := by
      rw [hflagged.cpu, hask.1, if_neg Bool.false_ne_true]
    have hmodule := moduleRules_eq h htype hname
      ⟨hundefined _ (by decide), hundefined _ (by decide)⟩
      (old ++ [generated s argn] ++ (given argn "CPP_SRC_FILES").map (absolutePath dir))
    rw [ifHolds_of_eq_none hgpu, ok_bind, if_neg Bool.false_ne_true, ifHolds_of_eq_one hcpu,
      ok_bind, if_pos rfl, hall.expand, hcpp.expand, hmodule, ok_bind]
    refine Returns.ok ⟨hall, ?_, fun h => absurd h htakes, fun h => absurd h htakes, ?_, hsv⟩
    · exact hflagged.gpu
    · rw [registered, if_neg htakes, hrules]

end Zscript

end Supercell
