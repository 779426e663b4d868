import Supercell.Zscript.Dispatch
import Mathlib.Data.List.Forall2

/-!
# Calls one after another

Several targets of one directory. `ZS_2_NATIVE_CODE` never takes back its flag
for the GPU and never empties its list of generated files, so a call can find
both of an earlier one. What it registers then is what it would register alone
only where the extension filter happens to drop the files of the others.
-/

namespace Supercell

namespace Zscript

open CMake CMake.Scope Hashmap Options Sections

section Runs

variable (dir : String) (evalIf : Scope → List String → Except Stop Bool)

/-! ## Runs -/

/-- What the calls of a directory register, each for its target. -/
def runCalls : Scope → List (List String) → Except Stop (List (List BuildRule))
  | _, [] => .ok []
  | s, argn :: calls => do
    let (t, rules) ← zs2NativeCode dir evalIf s argn
    return rules :: (← runCalls t calls)

/-- The sources of the modules among some rules. -/
def moduleSources (rules : List BuildRule) : List String :=
  rules.flatMap fun
    | .executable _ sources => sources
    | .shared _ sources => sources
    | .cudaLibrary _ sources => sources
    | _ => []

/-- The sources of a call: its own, and the file that is generated for it. -/
def ownSources (s : Scope) (argn : List String) : List String :=
  (given argn "CPP_SRC_FILES").map (absolutePath dir) ++ [generated s argn]

/-- **The calls are independent**: each registers what it would register in the
scope that the run began in, and its modules have its own sources, all of them and no
others. -/
def Independent (s : Scope) (calls : List (List String)) : Prop :=
  Returns (runCalls dir evalIf s calls) fun registrations =>
    List.Forall₂ (fun rules argn => Returns (zs2NativeCode dir evalIf s argn) (fun r => r.2 = rules) ∧
      (moduleSources rules).Perm (ownSources dir s argn)) registrations calls

end Runs

variable {dir : String} {evalIf : Scope → List String → Except Stop Bool} {s t : Scope}
  {argn old : List String} {calls : List (List String)}

/-- **A scope in which no target has been made.** -/
structure Fresh (s : Scope) : Prop where
  all : s "__zs_all_file" = none
  gpu : s "ZCC_ARCH_GPU" = none

/-- Files that the branch for the GPU drops, as far as it shows. -/
def Hidden (s : Scope) (files : List String) : Prop :=
  (s.truthy "ENABLE_FEATURE_CUDA" = true → cudaFiles files = []) ∧ cppFiles files = []

/-- A call does not see what it finds: the files of earlier targets, and their
flag. -/
def Unseen (s : Scope) (flag : Bool) (old argn : List String) : Prop :=
  if asksGpu argn then Hidden s old else flag = false ∧ old = []

/-- No call of a run sees what it finds. -/
def Isolated (s : Scope) : Bool → List String → List (List String) → Prop
  | _, _, [] => True
  | flag, old, argn :: calls => Unseen s flag old argn ∧
      Isolated s (flag || asksGpu argn) (old ++ [generated s argn]) calls

/-! ## One call -/

/-- The scope of a later call, for what the rules depend on. -/
theorem generated_of_agreesOff (ht : AgreesOff nativeWritten s t) (argn : List String) :
    generated t argn = generated s argn := by
  rw [generated, generated, targetPath, targetPath, ht.value (by decide)]

theorem optRules_of_agreesOff (ht : AgreesOff nativeWritten s t) (argn : List String) :
    optRules (asksGpu argn) (ruleScope dir t argn) =
      optRules (asksGpu argn) (ruleScope dir s argn) := by
  have htarget : targetPath t argn = targetPath s argn := by
    rw [targetPath, targetPath, ht.value (by decide)]
  have hvalue : ∀ x ∈ ruleVariables,
      (ruleScope dir t argn).value x = (ruleScope dir s argn).value x := by
    refine ruleScope_value (fun p hp => ?_) (ruleScope_files dir t argn)
      (ruleScope_options dir t argn) fun x hx => ?_
    · rw [ruleScope_path dir t argn p hp, htarget]
    · have hnot : ∀ y ∈ toolVariables, y ∉ nativeWritten := by decide
      rw [ruleScope_tool dir t argn x hx, ht.value (hnot x hx)]
  obtain ⟨hcu, hc, hallBc, hoptBc⟩ := rules_congr hvalue
  rw [optRules, optRules, hcu, hc, hallBc, hoptBc]

theorem moduleRule_injective {type target : String} {sources sources' : List String} :
    moduleRule type target sources = moduleRule type target sources' ↔ sources = sources' := by
  unfold moduleRule
  split <;> simp

theorem gpuRules_eq_iff {cuda : Bool} {type target : String} {files files' : List String} :
    gpuRules cuda type target files = gpuRules cuda type target files' ↔
      (cuda = true → cudaFiles files = cudaFiles files') ∧ cppFiles files = cppFiles files' := by
  unfold gpuRules
  cases cuda <;> simp [moduleRule_injective]

/-- **A call registers what it would register alone** exactly if it does not see
what it finds. -/
theorem registered_eq_iff (ht : AgreesOff nativeWritten s t) (hfresh : Fresh s) :
    registered dir t argn old = registered dir s argn [] ↔
      Unseen s (t "ZCC_ARCH_GPU").isSome old argn := by
  have htruthy : t.truthy "ENABLE_FEATURE_CUDA" = s.truthy "ENABLE_FEATURE_CUDA" := by
    rw [truthy, truthy, ht.value (by decide)]
  have hfreshTakes : takesGpu s argn = asksGpu argn := by
    rw [takesGpu, hfresh.gpu, Option.isSome_none, Bool.or_false]
  rw [registered, registered, optRules_of_agreesOff ht, generated_of_agreesOff ht, htruthy,
    hfreshTakes, List.append_cancel_left_eq, List.nil_append, Unseen]
  cases hask : asksGpu argn with
  | true =>
    have htakes : takesGpu t argn = true := by rw [takesGpu, hask, Bool.true_or]
    have hmore : ∀ fs gs hs : List String, fs ++ (gs ++ hs) = fs ++ hs ↔ gs = [] := by
      intro fs gs hs
      rw [List.append_cancel_left_eq, List.append_left_eq_self]
    rw [htakes, if_pos rfl, if_pos rfl, if_pos rfl, gpuRules_eq_iff, sourcesOf, sourcesOf, Hidden,
      cudaFiles_append, cudaFiles_append, cudaFiles_append, cppFiles_append, cppFiles_append,
      cppFiles_append, hmore, hmore]
  | false =>
    have htakes : takesGpu t argn = (t "ZCC_ARCH_GPU").isSome := by
      rw [takesGpu, hask, Bool.false_or]
    rw [htakes, if_neg Bool.false_ne_true, if_neg Bool.false_ne_true]
    cases (t "ZCC_ARCH_GPU").isSome with
    | true =>
      -- the branch for the GPU links a module besides the target
      refine iff_of_false (fun heq => ?_) (fun hunseen => Bool.false_ne_true hunseen.1.symm)
      have hlength := congrArg List.length heq
      rw [if_pos rfl, gpuRules, List.length_append, List.length_cons, List.length_singleton,
        List.length_singleton] at hlength
      omega
    | false =>
      rw [if_neg Bool.false_ne_true, List.singleton_inj, moduleRule_injective, List.append_assoc,
        List.append_left_eq_self]
      exact ⟨fun hold => ⟨rfl, hold⟩, And.right⟩

/-! ## A run -/

/-- **What a call registers in a fresh scope**: the branch that it asks for, its
own sources, and its own generated file. -/
theorem zs2NativeCode_fresh (evalIf : Scope → List String → Except Stop Bool)
    (hs : NativeScope dir s) (hfresh : Fresh s) (h : NativeArgs argn) :
    Returns (zs2NativeCode dir evalIf s argn) fun r => r.2 = registered dir s argn [] :=
  (zs2NativeCode_returns hs h (Holds.of_eq_none hfresh.all) (.inr (.inl hfresh.gpu))).mono
    fun _ hr => hr.rules

/-- A call leaves nothing in the way of the next one. -/
theorem NativeScope.later (hs : NativeScope dir s) (ht : AgreesOff nativeWritten s t) :
    NativeScope dir t := by
  refine hs.agreesOff ht ?_
  unfold nativeWritten
  simp only [List.forall_mem_append]
  exact ⟨⟨⟨by decide, by decide⟩, by decide⟩, by decide⟩

/-- **A run, call by call**, from what earlier calls have left. -/
theorem runCalls_returns (evalIf : Scope → List String → Except Stop Bool)
    (hs : NativeScope dir s) (hfresh : Fresh s)
    (hcalls : ∀ argn ∈ calls, NativeArgs argn) (ht : AgreesOff nativeWritten s t)
    (hold : t.Holds "__zs_all_file" old)
    (hflag : t "ZCC_ARCH_GPU" = none ∨ t "ZCC_ARCH_GPU" = some "1") :
    Returns (runCalls dir evalIf t calls) fun registrations =>
      (List.Forall₂ (fun rules argn => Returns (zs2NativeCode dir evalIf s argn) fun r =>
        r.2 = rules) registrations calls ↔ Isolated s (t "ZCC_ARCH_GPU").isSome old calls) := by
  induction calls generalizing t old with
  | nil => exact Returns.ok (iff_of_true .nil trivial)
  | cons argn calls ih =>
    have h := hcalls argn List.mem_cons_self
    obtain ⟨⟨u, rules⟩, hu, hdone⟩ := zs2NativeCode_returns (hs.later ht) h hold (.inr hflag)
    have hrules : rules = registered dir t argn old := hdone.rules
    have hall : u.Holds "__zs_all_file" (old ++ [generated s argn]) := by
      rw [← generated_of_agreesOff ht]
      exact hdone.all
    have huflag : u "ZCC_ARCH_GPU" = if asksGpu argn then some "1" else t "ZCC_ARCH_GPU" :=
      hdone.flag
    -- a flag once set is never taken back
    have hsome : (u "ZCC_ARCH_GPU").isSome = ((t "ZCC_ARCH_GPU").isSome || asksGpu argn) := by
      rw [huflag]
      cases asksGpu argn <;> simp
    have hflag' : u "ZCC_ARCH_GPU" = none ∨ u "ZCC_ARCH_GPU" = some "1" := by
      rw [huflag]
      split
      · exact .inr rfl
      · exact hflag
    obtain ⟨registrations, hrun, hiff⟩ := ih (fun a ha => hcalls a (List.mem_cons_of_mem argn ha))
      (ht.trans hdone.frame) hall hflag'
    refine ⟨rules :: registrations, ?_, ?_⟩
    · rw [runCalls, hu, ok_bind]
      dsimp only
      rw [hrun, ok_bind, pure_eq_ok]
    · obtain ⟨r, hr, hfreshRules⟩ := zs2NativeCode_fresh evalIf hs hfresh h
      have hcall : Returns (zs2NativeCode dir evalIf s argn) (fun r => r.2 = rules) ↔
          Unseen s (t "ZCC_ARCH_GPU").isSome old argn := by
        rw [hr, Returns.ok_iff, hfreshRules, hrules, eq_comm]
        exact registered_eq_iff ht hfresh
      rw [List.forall₂_cons, hcall, hiff, hsome, Isolated]

/-- Calls that register what they would register alone. -/
theorem forall₂_registered_iff (hs : NativeScope dir s) (hfresh : Fresh s)
    (hcalls : ∀ argn ∈ calls, NativeArgs argn) {registrations : List (List BuildRule)} :
    List.Forall₂ (fun rules argn =>
        Returns (zs2NativeCode dir evalIf s argn) (fun r => r.2 = rules) ∧
          (moduleSources rules).Perm (ownSources dir s argn)) registrations calls ↔
      List.Forall₂ (fun rules argn => Returns (zs2NativeCode dir evalIf s argn) fun r =>
        r.2 = rules) registrations calls ∧ ∀ argn ∈ calls,
          (moduleSources (registered dir s argn [])).Perm (ownSources dir s argn) := by
  induction calls generalizing registrations with
  | nil => simp
  | cons argn calls ih =>
    cases registrations with
    | nil => simp
    | cons rules registrations =>
      obtain ⟨r, hr, hrules⟩ := zs2NativeCode_fresh evalIf hs hfresh (hcalls argn List.mem_cons_self)
      rw [List.forall₂_cons, List.forall₂_cons, List.forall_mem_cons, hr, Returns.ok_iff,
        ih fun a ha => hcalls a (List.mem_cons_of_mem argn ha)]
      constructor
      · rintro ⟨⟨rfl, hsources⟩, hall, hrest⟩
        exact ⟨⟨rfl, hall⟩, hrules ▸ hsources, hrest⟩
      · rintro ⟨⟨rfl, hall⟩, hsources, hrest⟩
        exact ⟨⟨rfl, hrules.symm ▸ hsources⟩, hall, hrest⟩

/-- **The calls are independent** exactly if none sees what it finds, and each puts its
sources into modules. -/
theorem independent_iff_isolated (hs : NativeScope dir s) (hfresh : Fresh s)
    (hcalls : ∀ argn ∈ calls, NativeArgs argn) :
    Independent dir evalIf s calls ↔ Isolated s false [] calls ∧ ∀ argn ∈ calls,
      (moduleSources (registered dir s argn [])).Perm (ownSources dir s argn) := by
  have hrun := runCalls_returns evalIf hs hfresh hcalls (AgreesOff.refl _ s)
    (Holds.of_eq_none hfresh.all) (.inl hfresh.gpu)
  rw [hfresh.gpu, Option.isSome_none] at hrun
  obtain ⟨registrations, hregistrations, hiff⟩ := hrun
  rw [Independent, hregistrations, Returns.ok_iff, forall₂_registered_iff hs hfresh hcalls, hiff]

/-! ## When no call sees another -/

theorem hidden_append (fs gs : List String) : Hidden s (fs ++ gs) ↔ Hidden s fs ∧ Hidden s gs := by
  rw [Hidden, Hidden, Hidden, cudaFiles_append, cppFiles_append, List.append_eq_nil_iff,
    List.append_eq_nil_iff]
  constructor
  · intro h
    exact ⟨⟨fun hcuda => (h.1 hcuda).1, h.2.1⟩, fun hcuda => (h.1 hcuda).2, h.2.2⟩
  · intro h
    exact ⟨fun hcuda => ⟨h.1.1 hcuda, h.2.1 hcuda⟩, h.1.2, h.2.2⟩

/-- **A generated file does not show** where the name of its target has a dot, or
where it is for the GPU in a build without CUDA. -/
theorem hidden_generated_iff (h : NativeArgs argn) : Hidden s [generated s argn] ↔
    '.' ∈ (targetOf argn).toList ∨
      asksGpu argn = true ∧ s.truthy "ENABLE_FEATURE_CUDA" = false := by
  obtain ⟨hcuda, hcpp⟩ := dispatch_generated (s := s) h
  rw [Hidden, hcuda, hcpp]
  by_cases hdot : '.' ∈ (targetOf argn).toList
  · simp [hdot]
  · cases asksGpu argn <;> cases s.truthy "ENABLE_FEATURE_CUDA" <;> simp [hdot]

/-- Calls behind another one. -/
theorem isolated_iff {flag : Bool} (hold : old ≠ []) : Isolated s flag old calls ↔
    (∀ argn ∈ calls, asksGpu argn = true) ∧ (calls = [] ∨ Hidden s old) ∧
      ∀ argn ∈ calls.dropLast, Hidden s [generated s argn] := by
  induction calls generalizing flag old with
  | nil => simp [Isolated]
  | cons argn calls ih =>
    have hunseen : Unseen s flag old argn ↔ asksGpu argn = true ∧ Hidden s old := by
      rw [Unseen]
      cases asksGpu argn <;> simp [hold]
    rw [Isolated, hunseen, ih (by simp), hidden_append]
    -- the file of the last call is seen by no other
    by_cases hnil : calls = []
    · subst hnil
      simp
    · rw [List.dropLast_cons_of_ne_nil hnil]
      simp only [List.mem_cons, forall_eq_or_imp, hnil, false_or, List.cons_ne_nil]
      constructor
      · rintro ⟨⟨hgpu, hhidden⟩, hall, ⟨-, hone⟩, hrest⟩
        exact ⟨⟨hgpu, hall⟩, hhidden, hone, hrest⟩
      · rintro ⟨⟨hgpu, hall⟩, hhidden, hone, hrest⟩
        exact ⟨⟨hgpu, hhidden⟩, hall, ⟨hhidden, hone⟩, hrest⟩

/-- No call sees another: all but the first ask for the GPU, and the generated files of
all but the last do not show. -/
theorem isolated_nil_iff (hcalls : ∀ argn ∈ calls, NativeArgs argn) :
    Isolated s false [] calls ↔ (∀ argn ∈ calls.tail, asksGpu argn = true) ∧
      ∀ argn ∈ calls.dropLast, '.' ∈ (targetOf argn).toList ∨
        asksGpu argn = true ∧ s.truthy "ENABLE_FEATURE_CUDA" = false := by
  have hhidden : (∀ argn ∈ calls.dropLast, '.' ∈ (targetOf argn).toList ∨
      asksGpu argn = true ∧ s.truthy "ENABLE_FEATURE_CUDA" = false) ↔
        ∀ argn ∈ calls.dropLast, Hidden s [generated s argn] :=
    forall₂_congr fun argn hargn =>
      (hidden_generated_iff (hcalls argn (List.dropLast_subset _ hargn))).symm
  rw [hhidden]
  cases calls with
  | nil => simp [Isolated]
  | cons argn calls =>
    have hfirst : Unseen s false [] argn := by
      rw [Unseen]
      split
      · exact ⟨fun _ => rfl, rfl⟩
      · exact ⟨rfl, rfl⟩
    rw [Isolated, List.nil_append, isolated_iff (List.cons_ne_nil _ _), List.tail_cons]
    by_cases hnil : calls = []
    · subst hnil
      simp [hfirst]
    · rw [List.dropLast_cons_of_ne_nil hnil]
      simp only [List.mem_cons, forall_eq_or_imp, hnil, false_or]
      exact ⟨fun h => h.2, fun h => ⟨hfirst, h⟩⟩

/-! ## The sources of one call -/

theorem moduleSources_append (rules rules' : List BuildRule) :
    moduleSources (rules ++ rules') = moduleSources rules ++ moduleSources rules' :=
  List.flatMap_append

theorem moduleSources_moduleRule (type target : String) (sources : List String) :
    moduleSources [moduleRule type target sources] = sources := by
  unfold moduleRule
  split <;> simp [moduleSources]

/-- A source of a known extension is for one of the two compilers. -/
theorem cudaFiles_append_cppFiles_perm_iff {files : List String} :
    (cudaFiles files ++ cppFiles files).Perm files ↔ ∀ f ∈ files, extension f ∈ knownExtensions := by
  have hmem : ∀ f, f ∈ cudaFiles files ++ cppFiles files ↔
      f ∈ files ∧ extension f ∈ knownExtensions := by
    intro f
    simp only [cudaFiles, cppFiles, knownExtensions, List.mem_append, List.mem_filter,
      Bool.or_eq_true, beq_iff_eq, List.mem_cons, List.not_mem_nil, or_false]
    rw [← and_or_left, or_assoc]
  constructor
  · intro h f hf
    exact ((hmem f).1 (h.symm.subset hf)).2
  · intro h
    have hcpp : cppFiles files =
        files.filter fun f => !(extension f == ".cu" || extension f == ".zsall.cu") := by
      refine List.filter_congr fun f hf => ?_
      have hknown := h f hf
      simp only [knownExtensions, List.mem_cons, List.not_mem_nil, or_false] at hknown
      rcases hknown with hext | hext | hext | hext <;> rw [hext] <;> decide
    rw [hcpp, cudaFiles]
    exact List.filter_append_perm _ files

/-- **A call puts its sources into modules** unless it is for the GPU, and there
exactly where CUDA is enabled and the filter knows them all. -/
theorem perm_ownSources_iff (hfresh : Fresh s) (h : NativeArgs argn) :
    (moduleSources (registered dir s argn [])).Perm (ownSources dir s argn) ↔
      (asksGpu argn = true → s.truthy "ENABLE_FEATURE_CUDA" = true ∧ '.' ∉ (targetOf argn).toList ∧
        ∀ f ∈ given argn "CPP_SRC_FILES", extension (absolutePath dir f) ∈ knownExtensions) := by
  have htakes : takesGpu s argn = asksGpu argn := by
    rw [takesGpu, hfresh.gpu, Option.isSome_none, Bool.or_false]
  have hopt : moduleSources (optRules (asksGpu argn) (ruleScope dir s argn)) = [] := by
    unfold optRules
    split <;> rfl
  rw [registered, moduleSources_append, hopt, htakes, List.nil_append, List.nil_append]
  cases hask : asksGpu argn with
  | false =>
    rw [if_neg Bool.false_ne_true, moduleSources_moduleRule]
    exact iff_of_true List.perm_append_comm fun hcontra => absurd hcontra Bool.false_ne_true
  | true =>
    rw [if_pos rfl, gpuRules, moduleSources_append, sourcesOf]
    have hlinked : moduleSources [moduleRule (typeOf argn) (targetOf argn)
        (cppFiles (ownSources dir s argn)), .link [targetOf argn] [targetOf argn ++ "-cuda"]] =
          cppFiles (ownSources dir s argn) := by
      rw [← List.singleton_append, moduleSources_append, moduleSources_moduleRule]
      exact List.append_nil _
    rw [show (given argn "CPP_SRC_FILES").map (absolutePath dir) ++ [generated s argn] =
      ownSources dir s argn from rfl, hlinked]
    cases s.truthy "ENABLE_FEATURE_CUDA" with
    | true =>
      have hboth : moduleSources [.ptx (cudaFiles (ownSources dir s argn)), .cudaLibrary
          [targetOf argn ++ "-cuda"] (cudaFiles (ownSources dir s argn))] =
            cudaFiles (ownSources dir s argn) := by simp [moduleSources]
      rw [if_pos rfl, hboth, cudaFiles_append_cppFiles_perm_iff, ownSources, List.forall_mem_append,
        List.forall_mem_singleton, extension_generated_mem_iff h, List.forall_mem_map]
      simp [and_comm]
    | false =>
      -- the generated file is in no list
      refine iff_of_false (fun hperm => ?_) fun hcuda => absurd (hcuda rfl).1 Bool.false_ne_true
      have hmem : generated s argn ∈ cppFiles (ownSources dir s argn) :=
        hperm.symm.subset (List.mem_append_right _ (List.mem_singleton_self _))
      have hone : generated s argn ∈ cppFiles [generated s argn] :=
        List.mem_filter.2 ⟨List.mem_singleton_self _, (List.mem_filter.1 hmem).2⟩
      rw [(dispatch_generated h).2, hask, if_neg (by simp)] at hone
      exact absurd hone List.not_mem_nil

/-- **When the calls of a directory are independent**: all but the first ask for the
GPU, all but the last are for the CPU and have a dot in the name of their target, and
those for the GPU have none in theirs, and sources that the extension filter knows.
Alone, each call registers its own branch, sources and generated file. -/
theorem zs2NativeCode_independent_iff (hs : NativeScope dir s) (hfresh : Fresh s)
    (hcalls : ∀ argn ∈ calls, NativeArgs argn) :
    (∀ argn ∈ calls, Returns (zs2NativeCode dir evalIf s argn) fun r =>
      r.2 = optRules (asksGpu argn) (ruleScope dir s argn) ++
        if asksGpu argn then
          gpuRules (s.truthy "ENABLE_FEATURE_CUDA") (typeOf argn) (targetOf argn)
            ((given argn "CPP_SRC_FILES").map (absolutePath dir) ++ [generated s argn])
        else
          [moduleRule (typeOf argn) (targetOf argn)
            ([generated s argn] ++ (given argn "CPP_SRC_FILES").map (absolutePath dir))]) ∧
    (Independent dir evalIf s calls ↔ (∀ argn ∈ calls.tail, asksGpu argn = true) ∧
      (∀ argn ∈ calls.dropLast, asksGpu argn = false ∧ '.' ∈ (targetOf argn).toList) ∧
      ∀ argn ∈ calls, asksGpu argn = true →
        s.truthy "ENABLE_FEATURE_CUDA" = true ∧ '.' ∉ (targetOf argn).toList ∧
          ∀ f ∈ given argn "CPP_SRC_FILES", extension (absolutePath dir f) ∈ knownExtensions) := by
  constructor
  · intro argn hargn
    have htakes : takesGpu s argn = asksGpu argn := by
      rw [takesGpu, hfresh.gpu, Option.isSome_none, Bool.or_false]
    refine (zs2NativeCode_fresh evalIf hs hfresh (hcalls argn hargn)).mono fun r hr => ?_
    rw [hr, registered, htakes, List.nil_append, sourcesOf]
  · have hsources := forall₂_congr fun argn hargn =>
      @perm_ownSources_iff dir s argn hfresh (hcalls argn hargn)
    rw [independent_iff_isolated hs hfresh hcalls, isolated_nil_iff hcalls, hsources, and_assoc]
    refine and_congr_right fun _ => and_congr_left fun hown => forall₂_congr fun argn hargn => ?_
    have hgpu := hown argn (List.dropLast_subset _ hargn)
    -- a call for the GPU shows its file, if it is one of its sources
    cases hask : asksGpu argn with
    | true =>
      obtain ⟨hcuda, hdot, -⟩ := hgpu hask
      simp [hcuda, hdot]
    | false => simp

theorem fresh_moduleScope : Fresh moduleScope := ⟨by decide, by decide⟩

theorem zs2NativeCode_independent_iff_twoModules : Independent "/src" refused moduleScope
    [["TARGET_NAME", "game.v2", "ZCC_ARCH", "CPU"], ["TARGET_NAME", "game", "ZCC_ARCH", "GPU"]] := by
  have hcalls : ∀ argn ∈ [["TARGET_NAME", "game.v2", "ZCC_ARCH", "CPU"],
      ["TARGET_NAME", "game", "ZCC_ARCH", "GPU"]], NativeArgs argn := by
    intro argn hargn
    rw [List.mem_cons, List.mem_singleton] at hargn
    rcases hargn with rfl | rfl
    · constructor <;> decide +kernel
    · constructor <;> decide +kernel
  exact (zs2NativeCode_independent_iff nativeScope_moduleScope fresh_moduleScope hcalls).2.2
    ⟨by decide +kernel, by decide +kernel, by decide +kernel⟩

/-- **Two pairs of calls that are not independent**: a module for the CPU behind
one for the GPU takes its branch, and behind one for the CPU its file. -/
theorem zs2NativeCode_dependent :
    ¬ Independent "/src" refused moduleScope
        [["TARGET_NAME", "game", "ZCC_ARCH", "gpu"], ["TARGET_NAME", "tools", "ZCC_ARCH", "cpu"]] ∧
      ¬ Independent "/src" refused moduleScope
        [["TARGET_NAME", "game", "ZCC_ARCH", "cpu"],
          ["TARGET_NAME", "tools", "ZCC_ARCH", "cpu"]] := by
  have hcalls : ∀ arch ∈ ["gpu", "cpu"], ∀ argn ∈ [["TARGET_NAME", "game", "ZCC_ARCH", arch],
      ["TARGET_NAME", "tools", "ZCC_ARCH", "cpu"]], NativeArgs argn := by
    intro arch harch argn hargn
    rw [List.mem_cons, List.mem_singleton] at harch hargn
    rcases harch with rfl | rfl <;> rcases hargn with rfl | rfl <;> constructor <;> decide +kernel
  have hcpu : ¬ asksGpu ["TARGET_NAME", "tools", "ZCC_ARCH", "cpu"] = true := by decide +kernel
  constructor
  · rw [independent_iff_isolated nativeScope_moduleScope fresh_moduleScope (hcalls "gpu" (by simp))]
    intro h
    have hunseen := h.1.2.1
    rw [Unseen, if_neg hcpu] at hunseen
    exact absurd hunseen.1 (by decide +kernel)
  · rw [independent_iff_isolated nativeScope_moduleScope fresh_moduleScope (hcalls "cpu" (by simp))]
    intro h
    have hunseen := h.1.2.1
    rw [Unseen, if_neg hcpu] at hunseen
    exact absurd hunseen.2 (by simp)

end Zscript

end Supercell
