import Supercell.Zscript.Modules
import Supercell.Zscript.Sources

/-!
# The extension filter

The branch of `ZS_2_NATIVE_CODE` for the GPU dispatches the sources and the
generated file by their whole extensions, and drops what it does not know. The
generated file is named after the target, so whether it is known depends on the
dots in the name of the target.
-/

namespace Supercell

namespace Zscript

open CMake CMake.Scope Hashmap Options Sections

variable {dir : String} {evalIf : Scope → List String → Except Stop Bool} {s t : Scope}
  {argn old : List String}

/-! ## Extensions -/

/-- The name of a file ends in the text. -/
def nameEndsIn (ending f : String) : Bool := ending.toList.isSuffixOf (fileName f).toList

/-- The extension is an end of the name. -/
theorem nameEndsIn_extension (f : String) : nameEndsIn (extension f) f = true := by
  rw [nameEndsIn, ← stem_append_extension, List.isSuffixOf_iff_suffix, String.toList_append]
  exact List.suffix_append _ _

/-- A path with a name that ends in an extension keeps it when it is made
absolute. -/
theorem extension_absolutePath {f : String} (h : nameEndsIn ".cpp" f = true ∨
    nameEndsIn ".cu" f = true) (dir : String) : extension (absolutePath dir f) = extension f := by
  have hne : ∀ w ∈ ["", ".", ".."], fileName f ≠ w := by
    intro w hw heq
    rw [nameEndsIn, nameEndsIn, heq] at h
    exact absurd h ((by decide : ∀ w ∈ ["", ".", ".."], ¬(".cpp".toList.isSuffixOf w.toList = true ∨
      ".cu".toList.isSuffixOf w.toList = true)) w hw)
  rw [extension, extension, fileName_absolutePath (hne _ (by decide)) (hne _ (by decide))
    (hne _ (by decide))]

/-- The extensions that are dispatched. -/
def knownExtensions : List String := [".cu", ".zsall.cu", ".cpp", ".zsall.c"]

/-- **The extension of a generated file** begins in the name of the target. -/
theorem extension_generated (h : NativeArgs argn) : (extension (generated s argn)).toList =
    (targetOf argn).toList.dropWhile (· ≠ '.') ++
      (if asksGpu argn then ".zsall.cu" else ".zsall.c").toList := by
  have hname : fileName (generated s argn) =
      targetOf argn ++ if asksGpu argn then ".zsall.cu" else ".zsall.c" := by
    rw [generated, targetPath, String.append_assoc]
    refine fileName_append ?_
    rw [String.toList_append, List.mem_append, not_or]
    refine ⟨h.target_name.2, ?_⟩
    split <;> decide
  rw [extension, hname, String.toList_ofList, String.toList_append, List.dropWhile_append]
  split
  · rename_i hnil
    rw [List.isEmpty_iff] at hnil
    rw [hnil, List.nil_append]
    split <;> decide
  · rfl

/-- **The generated file is known** exactly if there is no dot in the name of the
target. -/
theorem extension_generated_mem_iff (h : NativeArgs argn) :
    extension (generated s argn) ∈ knownExtensions ↔ '.' ∉ (targetOf argn).toList := by
  have hext := extension_generated (s := s) h
  constructor
  · intro hmem hdot
    have hne : (targetOf argn).toList.dropWhile (· ≠ '.') ≠ [] := by
      intro hnil
      rw [List.dropWhile_eq_nil_iff] at hnil
      simpa using hnil '.' hdot
    obtain ⟨c, cs, hcs⟩ := List.exists_cons_of_ne_nil hne
    rw [hcs] at hext
    -- the extension is longer than the known ones of its ending
    have hlong : ∀ k ∈ knownExtensions, ∀ gpu : Bool,
        k.toList ≠ c :: cs ++ (if gpu then ".zsall.cu" else ".zsall.c").toList := by
      intro k hk gpu heq
      have hlength := congrArg List.length heq
      have hlast := congrArg List.getLast? heq
      rw [List.getLast?_append] at hlast
      simp only [knownExtensions, List.mem_cons, List.not_mem_nil, or_false] at hk
      cases gpu with
      | true =>
        rcases hk with rfl | rfl | rfl | rfl <;> simp at hlength
      | false =>
        rcases hk with rfl | rfl | rfl | rfl
        · simp at hlength
        · simp at hlast
        · simp at hlength
        · simp at hlength
    exact hlong _ hmem _ hext
  · intro hdot
    have hnil : (targetOf argn).toList.dropWhile (· ≠ '.') = [] := by
      rw [List.dropWhile_eq_nil_iff]
      intro c hc
      rw [decide_eq_true_eq]
      intro heq
      exact hdot (heq ▸ hc)
    rw [hnil, List.nil_append, String.toList_inj] at hext
    rw [hext]
    split <;> decide

/-! ## The filter -/

theorem cudaFiles_append (fs gs : List String) :
    cudaFiles (fs ++ gs) = cudaFiles fs ++ cudaFiles gs := List.filter_append ..

theorem cppFiles_append (fs gs : List String) :
    cppFiles (fs ++ gs) = cppFiles fs ++ cppFiles gs := List.filter_append ..

/-- **No source is lost**: besides the files of earlier targets, the list for the
CUDA compiler has the `.cu` files and the generated file, and the list for the
C++ compiler the `.cpp` files, all in order. -/
structure AllDispatched (dir : String) (s t : Scope) (argn old : List String) : Prop where
  cuda : t.Holds "__split_cuda_src_files"
    (((given argn "CPP_SRC_FILES").filter (nameEndsIn ".cu")).map (absolutePath dir) ++
      (cudaFiles old ++ [generated s argn]))
  cpp : t.Holds "__split_cpp_src_files"
    (((given argn "CPP_SRC_FILES").filter (nameEndsIn ".cpp")).map (absolutePath dir) ++
      cppFiles old)
  complete : ∀ f ∈ (given argn "CPP_SRC_FILES").map (absolutePath dir) ++ [generated s argn],
    f ∈ t.list "__split_cuda_src_files" ∨ f ∈ t.list "__split_cpp_src_files"

/-- A class of the sources, by an extension that does not change. -/
theorem filter_map_absolutePath {files : List String} (p : String → Bool)
    (hfiles : ∀ f ∈ files, extension (absolutePath dir f) = extension f) :
    (files.map (absolutePath dir)).filter (fun f => p (extension f)) =
      (files.filter fun f => p (extension f)).map (absolutePath dir) := by
  have hfilter : files.filter ((fun f => p (extension f)) ∘ absolutePath dir) =
      files.filter fun f => p (extension f) := by
    refine List.filter_congr fun f hf => ?_
    rw [Function.comp_apply, hfiles f hf]
  rw [List.filter_map, hfilter]

/-- **The generated file is dispatched** by its ending, and dropped where the name
of the target has a dot. -/
theorem dispatch_generated (h : NativeArgs argn) :
    cudaFiles [generated s argn] =
        (if '.' ∉ (targetOf argn).toList ∧ asksGpu argn = true then [generated s argn] else []) ∧
      cppFiles [generated s argn] =
        if '.' ∉ (targetOf argn).toList ∧ asksGpu argn = false then [generated s argn] else [] := by
  by_cases hdot : '.' ∈ (targetOf argn).toList
  · have hunknown : extension (generated s argn) ∉ knownExtensions := fun hmem =>
      (extension_generated_mem_iff h).1 hmem hdot
    simp only [knownExtensions, List.mem_cons, List.not_mem_nil, or_false, not_or] at hunknown
    obtain ⟨hcu, hzsallcu, hcpp, hzsallc⟩ := hunknown
    simp [cudaFiles, cppFiles, hdot, hcu, hzsallcu, hcpp, hzsallc]
  · have hext : extension (generated s argn) = if asksGpu argn then ".zsall.cu" else ".zsall.c" := by
      have hnil : (targetOf argn).toList.dropWhile (· ≠ '.') = [] := by
        rw [List.dropWhile_eq_nil_iff]
        intro c hc
        rw [decide_eq_true_eq]
        intro heq
        exact hdot (heq ▸ hc)
      rw [← String.toList_inj, extension_generated h, hnil, List.nil_append]
    cases hask : asksGpu argn with
    | true =>
      rw [hask, if_pos rfl] at hext
      simp [cudaFiles, cppFiles, hdot, hext]
    | false =>
      rw [hask, if_neg Bool.false_ne_true] at hext
      simp [cudaFiles, cppFiles, hdot, hext]

/-- The extensions of CUDA files are ends of a name in `.cu`. -/
theorem nameEndsIn_cu_of_extension {f : String}
    (h : (extension f == ".cu" || extension f == ".zsall.cu") = true) :
    nameEndsIn ".cu" f = true := by
  rw [Bool.or_eq_true, beq_iff_eq, beq_iff_eq] at h
  have hend := nameEndsIn_extension f
  rw [nameEndsIn, List.isSuffixOf_iff_suffix] at hend ⊢
  rcases h with hext | hext
  · exact hext ▸ hend
  · rw [hext] at hend
    exact List.IsSuffix.trans (by decide) hend

/-- A source that ends in `.cpp` or `.cu` is not taken for a generated C file. -/
theorem extension_ne_zsallC {f : String} (h : nameEndsIn ".cpp" f = true ∨
    nameEndsIn ".cu" f = true) : extension f ≠ ".zsall.c" := by
  intro hext
  have hend := nameEndsIn_extension f
  rw [hext, nameEndsIn, List.isSuffixOf_iff_suffix] at hend
  rw [nameEndsIn, nameEndsIn, List.isSuffixOf_iff_suffix, List.isSuffixOf_iff_suffix] at h
  rcases h with hcpp | hcu
  · have hsuffix : ".cpp".toList <:+ ".zsall.c".toList :=
      List.suffix_of_suffix_length_le hcpp hend (by decide)
    exact absurd hsuffix (by decide)
  · have hsuffix : ".cu".toList <:+ ".zsall.c".toList :=
      List.suffix_of_suffix_length_le hcu hend (by decide)
    exact absurd hsuffix (by decide)

/-- No name ends in both. -/
theorem not_nameEndsIn_both (f : String) :
    ¬ (nameEndsIn ".cpp" f = true ∧ nameEndsIn ".cu" f = true) := by
  intro h
  rw [nameEndsIn, nameEndsIn, List.isSuffixOf_iff_suffix, List.isSuffixOf_iff_suffix] at h
  have hsuffix : ".cu".toList <:+ ".cpp".toList :=
    List.suffix_of_suffix_length_le h.2 h.1 (by decide)
  exact absurd hsuffix (by decide)

theorem length_cudaFiles_le (files : List String) :
    (cudaFiles files).length ≤ (files.filter (nameEndsIn ".cu")).length := by
  rw [cudaFiles, ← List.countP_eq_length_filter, ← List.countP_eq_length_filter]
  exact List.countP_mono_left fun f _ => nameEndsIn_cu_of_extension

/-- **If as many sources are dispatched as should be**, all have known
extensions. -/
theorem known_of_length_eq {files : List String}
    (hends : ∀ f ∈ files, nameEndsIn ".cpp" f = true ∨ nameEndsIn ".cu" f = true)
    (hcuda : (cudaFiles files).length = (files.filter (nameEndsIn ".cu")).length)
    (hcpp : (cppFiles files).length = (files.filter (nameEndsIn ".cpp")).length) :
    ∀ f ∈ files, extension f ∈ [".cpp", ".cu", ".zsall.cu"] := by
  have hcppExt : ∀ f ∈ files, (extension f == ".cpp" || extension f == ".zsall.c") = true →
      extension f = ".cpp" := by
    intro f hf hext
    rw [Bool.or_eq_true, beq_iff_eq, beq_iff_eq] at hext
    exact hext.resolve_right (extension_ne_zsallC (hends f hf))
  have hcudaAll := (length_filter_eq_iff fun f _ => nameEndsIn_cu_of_extension).1 hcuda
  have hcppAll := (length_filter_eq_iff fun f hf hext => by
    have hend := nameEndsIn_extension f
    rwa [hcppExt f hf hext] at hend).1 hcpp
  intro f hf
  rcases hends f hf with hend | hend
  · rw [hcppExt f hf (hcppAll f hf hend)]
    decide
  · have hext := hcudaAll f hf hend
    rw [Bool.or_eq_true, beq_iff_eq, beq_iff_eq] at hext
    rcases hext with hext | hext
    · rw [hext]
      decide
    · rw [hext]
      decide

/-- **Sources with known extensions** are dispatched by the ends of their
names. -/
theorem filters_of_known {files : List String}
    (hfiles : ∀ f ∈ files, extension f ∈ [".cpp", ".cu", ".zsall.cu"]) :
    cudaFiles files = files.filter (nameEndsIn ".cu") ∧
      cppFiles files = files.filter (nameEndsIn ".cpp") := by
  have hcases : ∀ f ∈ files, extension f = ".cpp" ∧ nameEndsIn ".cpp" f = true ∧
      nameEndsIn ".cu" f = false ∨ (extension f = ".cu" ∨ extension f = ".zsall.cu") ∧
      nameEndsIn ".cu" f = true ∧ nameEndsIn ".cpp" f = false := by
    intro f hf
    have hext := hfiles f hf
    simp only [List.mem_cons, List.not_mem_nil, or_false] at hext
    rcases hext with hext | hext
    · have hend : nameEndsIn ".cpp" f = true := hext ▸ nameEndsIn_extension f
      exact .inl ⟨hext, hend, Bool.eq_false_iff.2 fun h => not_nameEndsIn_both f ⟨hend, h⟩⟩
    · have hend : nameEndsIn ".cu" f = true := nameEndsIn_cu_of_extension (by
        rwa [Bool.or_eq_true, beq_iff_eq, beq_iff_eq])
      exact .inr ⟨hext, hend, Bool.eq_false_iff.2 fun h => not_nameEndsIn_both f ⟨h, hend⟩⟩
  constructor
  · refine List.filter_congr fun f hf => ?_
    rcases hcases f hf with ⟨hext, -, hend⟩ | ⟨hext, hend, -⟩
    · rw [hext, hend]
      decide
    · rcases hext with hext | hext <;> rw [hext, hend] <;> decide
  · refine List.filter_congr fun f hf => ?_
    rcases hcases f hf with ⟨hext, hend, -⟩ | ⟨hext, -, hend⟩
    · rw [hext, hend]
      decide
    · rcases hext with hext | hext <;> rw [hext, hend] <;> decide

/-- **When no source is lost**: the name of the target has no dot, and no source
has one in its name in front of its extension, but for a `.zsall.cu`. -/
theorem zs2NativeCode_dispatches_iff (hs : NativeScope dir s) (h : NativeArgs argn)
    (hgpu : asksGpu argn = true) (hold : s.Holds "__zs_all_file" old)
    (hends : ∀ f ∈ given argn "CPP_SRC_FILES",
      nameEndsIn ".cpp" f = true ∨ nameEndsIn ".cu" f = true) :
    Returns (zs2NativeCode dir evalIf s argn) fun r =>
      (AllDispatched dir s r.1 argn old ↔ '.' ∉ (targetOf argn).toList ∧
        ∀ f ∈ given argn "CPP_SRC_FILES", extension f ∈ [".cpp", ".cu", ".zsall.cu"]) := by
  refine (zs2NativeCode_returns hs h hold (.inl hgpu)).mono fun r hr => ?_
  have htakes : takesGpu s argn = true := by rw [takesGpu, hgpu, Bool.true_or]
  have hsame : ∀ f ∈ given argn "CPP_SRC_FILES", extension (absolutePath dir f) = extension f :=
    fun f hf => extension_absolutePath (hends f hf) dir
  have hcuda := hr.cuda htakes
  have hcpp := hr.cpp htakes
  obtain ⟨hcudaGenerated, hcppGenerated⟩ := dispatch_generated (s := s) h
  rw [hgpu] at hcudaGenerated hcppGenerated
  rw [if_neg (by simp)] at hcppGenerated
  rw [sourcesOf, cudaFiles_append, cudaFiles_append, cudaFiles,
    filter_map_absolutePath (fun e => e == ".cu" || e == ".zsall.cu") hsame, ← cudaFiles] at hcuda
  rw [sourcesOf, cppFiles_append, cppFiles_append, cppFiles,
    filter_map_absolutePath (fun e => e == ".cpp" || e == ".zsall.c") hsame, ← cppFiles,
    hcppGenerated, List.append_nil] at hcpp
  constructor
  · intro hall
    -- a file in neither list shows in their lengths
    have hcudaLength := congrArg List.length (hcuda.unique hall.cuda)
    have hcppLength := congrArg List.length (hcpp.unique hall.cpp)
    have hle := length_cudaFiles_le (given argn "CPP_SRC_FILES")
    simp only [List.length_append, List.length_map, List.length_singleton] at hcudaLength hcppLength
    have hdot : '.' ∉ (targetOf argn).toList := by
      intro hdot
      rw [hcudaGenerated, if_neg (by simp [hdot]), List.length_nil] at hcudaLength
      omega
    rw [hcudaGenerated, if_pos ⟨hdot, rfl⟩, List.length_singleton] at hcudaLength
    exact ⟨hdot, known_of_length_eq hends (by omega) (by omega)⟩
  · intro h
    obtain ⟨hdot, hknown⟩ := h
    obtain ⟨hcudaFiles, hcppFiles⟩ := filters_of_known hknown
    rw [hcudaGenerated, if_pos ⟨hdot, rfl⟩, hcudaFiles] at hcuda
    rw [hcppFiles] at hcpp
    refine ⟨hcuda, hcpp, fun f hf => ?_⟩
    rw [hcuda.list, hcpp.list]
    simp only [List.mem_append, List.mem_map, List.mem_singleton] at hf
    rcases hf with ⟨g, hg, rfl⟩ | rfl
    · rcases hends g hg with hend | hend
      · exact .inr (List.mem_append_left _ (List.mem_map_of_mem (List.mem_filter.2 ⟨hg, hend⟩)))
      · exact .inl (List.mem_append_left _ (List.mem_map_of_mem (List.mem_filter.2 ⟨hg, hend⟩)))
    · exact .inl (List.mem_append_right _ (List.mem_append_right _ List.mem_cons_self))

/-- A directory with nothing in the way. -/
def moduleScope : Scope :=
  (Scope.empty.assign "CMAKE_CURRENT_BINARY_DIR" "/build").assign "ENABLE_FEATURE_CUDA" "TRUE"

theorem nativeScope_moduleScope : NativeScope "/src" moduleScope := by
  have hempty : Quiet Scope.empty := fun _ _ => rfl
  have hagree : AgreesOff ["CMAKE_CURRENT_BINARY_DIR", "ENABLE_FEATURE_CUDA"] Scope.empty
      moduleScope := ((AgreesOff.refl _ _).assign (by decide) _).assign (by decide) _
  exact ⟨hempty.agreesOff hagree (by decide), by decide, by decide, by decide⟩

theorem zs2NativeCode_dispatches_iff_module :
    Returns (zs2NativeCode "/src" refused moduleScope
      ["TARGET_NAME", "game", "ZCC_ARCH", "GPU", "CPP_SRC_FILES", "a.cpp", "b.cu"]) fun r =>
        AllDispatched "/src" moduleScope r.1
          ["TARGET_NAME", "game", "ZCC_ARCH", "GPU", "CPP_SRC_FILES", "a.cpp", "b.cu"] [] := by
  refine (zs2NativeCode_dispatches_iff nativeScope_moduleScope ?_ (by decide +kernel)
    (Holds.of_eq_none rfl) (by decide +kernel)).mono fun _ hr => hr.2 (by decide +kernel)
  constructor <;> decide +kernel

/-- **A target with a dot in its name** loses its generated file, and a source
with one is lost as well. -/
theorem zs2NativeCode_drops :
    Returns (zs2NativeCode "/src" refused moduleScope
      ["TARGET_NAME", "game.v2", "ZCC_ARCH", "gpu", "CPP_SRC_FILES", "a.v2.cpp"]) fun r =>
        ¬ AllDispatched "/src" moduleScope r.1
          ["TARGET_NAME", "game.v2", "ZCC_ARCH", "gpu", "CPP_SRC_FILES", "a.v2.cpp"] [] ∧
        r.1.list "__split_cuda_src_files" = [] ∧ r.1.list "__split_cpp_src_files" = [] := by
  have hargs : NativeArgs
      ["TARGET_NAME", "game.v2", "ZCC_ARCH", "gpu", "CPP_SRC_FILES", "a.v2.cpp"] := by
    constructor <;> decide +kernel
  have hall : moduleScope.Holds "__zs_all_file" [] := Holds.of_eq_none rfl
  refine (zs2NativeCode_returns nativeScope_moduleScope hargs hall
    (.inl (by decide +kernel))).mono fun r hr => ?_
  have htakes : takesGpu moduleScope
      ["TARGET_NAME", "game.v2", "ZCC_ARCH", "gpu", "CPP_SRC_FILES", "a.v2.cpp"] = true := by
    decide +kernel
  have hcuda : r.1.list "__split_cuda_src_files" = [] := by
    rw [(hr.cuda htakes).list]
    decide +kernel
  have hcpp : r.1.list "__split_cpp_src_files" = [] := by
    rw [(hr.cpp htakes).list]
    decide +kernel
  refine ⟨fun hall => ?_, hcuda, hcpp⟩
  have hlength := congrArg List.length (hall.cuda.list.symm.trans hcuda)
  simp at hlength

end Zscript

end Supercell
