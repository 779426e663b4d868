import Supercell.CMake.Holds
import Supercell.CMake.Path

/-!
# Sources and options

`FindZilliansCompiler.cmake`: `ZS_GET_SOURCES_AND_OPTIONS` sorts the arguments
of a macro into zscript files, options and other sources. A file counts as
zscript by its extension, which is the longest one.
-/

namespace Supercell

namespace Zscript

open CMake CMake.Scope

/-! ## The macro -/

/-- One argument. -/
def sourceRound (zs_src_files normal_src_files zcc_options : String) (s : Scope) :
    Except Stop Scope := do
  let s ← s.getFilenameComponent "ARG_FILE_EXT" extension (s.expand "arg")
  if s.strequal "ARG_FILE_EXT" ".zs" then
    if isAbsolute (s.value "arg") then return s.listAppend zs_src_files [s.value "arg"]
    else
      let file := s.value "CMAKE_CURRENT_SOURCE_DIR" ++ "/" ++ s.value "arg"
      return s.listAppend zs_src_files [file]
  else if s.strequal "arg" "ZCC_OPTIONS" then return s.assign "_found_options" "TRUE"
  else if s.truthy "_found_options" then return s.listAppend zcc_options [s.value "arg"]
  else return s.listAppend normal_src_files [s.value "arg"]

/-- **`ZS_GET_SOURCES_AND_OPTIONS`**. -/
def zsGetSourcesAndOptions (s : Scope) (zs_src_files normal_src_files zcc_options : String)
    (argn : List String) : Except Stop Scope := do
  let s := s.unset normal_src_files
  let s := s.unset zs_src_files
  let s := s.assign "_found_options" "FALSE"
  foreach s "arg" (← s.evaluate (joined argn))
    (sourceRound zs_src_files normal_src_files zcc_options)

/-! ## The classes -/

section Classes

variable (isZs : String → Bool)

/-- The zscript files among the arguments. -/
def zsFiles (args : List String) : List String := args.filter isZs

/-- The other sources: they stand before the token. -/
def normalFiles (args : List String) : List String :=
  (args.takeWhile (· ≠ "ZCC_OPTIONS")).filter fun a => !isZs a

/-- The options: they stand behind it. -/
def zccOptions (args : List String) : List String :=
  (args.dropWhile (· ≠ "ZCC_OPTIONS")).filter fun a => !isZs a && a ≠ "ZCC_OPTIONS"

variable {isZs}

/-- **Every argument but the token is in one class**, as often as it is given. -/
theorem perm_classes (htoken : isZs "ZCC_OPTIONS" = false) (args : List String) :
    (zsFiles isZs args ++ normalFiles isZs args ++ zccOptions isZs args).Perm
      (args.filter (· ≠ "ZCC_OPTIONS")) := by
  have hzs : zsFiles isZs args = (args.filter (· ≠ "ZCC_OPTIONS")).filter isZs := by
    rw [List.filter_filter]
    refine List.filter_congr fun a _ => ?_
    by_cases ha : a = "ZCC_OPTIONS"
    · rw [ha, htoken, Bool.false_and]
    · simp [ha]
  have hrest : normalFiles isZs args ++ zccOptions isZs args =
      (args.filter (· ≠ "ZCC_OPTIONS")).filter fun a => !isZs a := by
    have hbefore : (args.takeWhile (· ≠ "ZCC_OPTIONS")).filter (fun a => !isZs a) =
        (args.takeWhile (· ≠ "ZCC_OPTIONS")).filter fun a => !isZs a && a ≠ "ZCC_OPTIONS" := by
      refine List.filter_congr fun a ha => ?_
      have hne : a ≠ "ZCC_OPTIONS" := by simpa using List.mem_takeWhile_imp ha
      simp [hne]
    rw [normalFiles, zccOptions, hbefore, ← List.filter_append, List.takeWhile_append_dropWhile,
      List.filter_filter]
  rw [List.append_assoc, hzs, hrest]
  exact List.filter_append_perm _ _

/-- The first token behind some arguments. -/
theorem takeWhile_append_of_mem {xs : List String} (h : "ZCC_OPTIONS" ∈ xs) (a : String) :
    (xs ++ [a]).takeWhile (· ≠ "ZCC_OPTIONS") = xs.takeWhile (· ≠ "ZCC_OPTIONS") ∧
      (xs ++ [a]).dropWhile (· ≠ "ZCC_OPTIONS") = xs.dropWhile (· ≠ "ZCC_OPTIONS") ++ [a] := by
  have hsome : ¬ ∀ x ∈ xs, decide (x ≠ "ZCC_OPTIONS") = true := fun hall => by
    simpa using hall _ h
  have hne : xs.dropWhile (· ≠ "ZCC_OPTIONS") ≠ [] := fun hnil =>
    hsome (List.dropWhile_eq_nil_iff.1 hnil)
  have hlength : (xs.takeWhile (· ≠ "ZCC_OPTIONS")).length ≠ xs.length := by
    intro hlength
    have hsplit := congrArg List.length
      (List.takeWhile_append_dropWhile (p := (· ≠ "ZCC_OPTIONS")) (l := xs))
    rw [List.length_append, hlength] at hsplit
    exact hne (List.length_eq_zero_iff.1 (by omega))
  rw [List.takeWhile_append, if_neg hlength, List.dropWhile_append,
    if_neg (by rwa [List.isEmpty_iff])]
  exact ⟨rfl, rfl⟩

theorem takeWhile_append_of_notMem {xs : List String} (h : "ZCC_OPTIONS" ∉ xs) (a : String) :
    (xs ++ [a]).takeWhile (· ≠ "ZCC_OPTIONS") = xs ++ [a].takeWhile (· ≠ "ZCC_OPTIONS") ∧
      (xs ++ [a]).dropWhile (· ≠ "ZCC_OPTIONS") = [a].dropWhile (· ≠ "ZCC_OPTIONS") := by
  have hall : ∀ x ∈ xs, decide (x ≠ "ZCC_OPTIONS") = true := by
    intro x hx
    rw [decide_eq_true_eq]
    rintro rfl
    exact h hx
  rw [List.takeWhile_append_of_pos hall, List.dropWhile_append_of_pos hall]
  exact ⟨rfl, rfl⟩

/-- **One more argument** goes to one of the classes. -/
theorem classes_append (xs : List String) (a : String) :
    zsFiles isZs (xs ++ [a]) = zsFiles isZs xs ++ (if isZs a then [a] else []) ∧
    normalFiles isZs (xs ++ [a]) = normalFiles isZs xs ++
      (if isZs a = false ∧ a ≠ "ZCC_OPTIONS" ∧ "ZCC_OPTIONS" ∉ xs then [a] else []) ∧
    zccOptions isZs (xs ++ [a]) = zccOptions isZs xs ++
      (if isZs a = false ∧ a ≠ "ZCC_OPTIONS" ∧ "ZCC_OPTIONS" ∈ xs then [a] else []) := by
  refine ⟨?_, ?_, ?_⟩
  · rw [zsFiles, List.filter_append, zsFiles]
    by_cases ha : isZs a = true <;> simp [ha]
  · rw [normalFiles, normalFiles]
    by_cases hmem : "ZCC_OPTIONS" ∈ xs
    · rw [(takeWhile_append_of_mem hmem a).1]
      simp [hmem]
    · have hself : xs.takeWhile (· ≠ "ZCC_OPTIONS") = xs := by
        rw [List.takeWhile_eq_self_iff]
        intro x hx
        rw [decide_eq_true_eq]
        rintro rfl
        exact hmem hx
      rw [(takeWhile_append_of_notMem hmem a).1, List.filter_append, hself]
      by_cases ha : a = "ZCC_OPTIONS" <;> by_cases hzs : isZs a = true <;> simp [ha, hzs, hmem]
  · rw [zccOptions, zccOptions]
    by_cases hmem : "ZCC_OPTIONS" ∈ xs
    · rw [(takeWhile_append_of_mem hmem a).2, List.filter_append]
      by_cases ha : a = "ZCC_OPTIONS" <;> by_cases hzs : isZs a = true <;> simp [ha, hzs, hmem]
    · have hnil : xs.dropWhile (· ≠ "ZCC_OPTIONS") = [] := by
        rw [List.dropWhile_eq_nil_iff]
        intro x hx
        rw [decide_eq_true_eq]
        rintro rfl
        exact hmem hx
      rw [(takeWhile_append_of_notMem hmem a).2, hnil]
      by_cases ha : a = "ZCC_OPTIONS" <;> simp [ha, hmem]

end Classes

/-! ## The loop -/

variable {s t : Scope} {args before : List String} {zs normal options : String}

/-- What the macro takes for a zscript file. -/
def hasZsExtension (a : String) : Bool := extension a == ".zs"

/-- A file of the source directory, as an absolute path. -/
def inSource (s : Scope) (a : String) : String :=
  if isAbsolute a then a else s.value "CMAKE_CURRENT_SOURCE_DIR" ++ "/" ++ a

theorem inSource_congr
    (h : t.value "CMAKE_CURRENT_SOURCE_DIR" = s.value "CMAKE_CURRENT_SOURCE_DIR") :
    inSource t = inSource s := by
  funext a
  rw [inSource, inSource, h]

/-- The variables that a call reads or writes besides the three lists. -/
def sourceScratch : List String :=
  ["arg", "ARG_FILE_EXT", "_found_options", "CMAKE_CURRENT_SOURCE_DIR", ".zs", "ZCC_OPTIONS"]

/-- **A call of the macro** on plain words, with three lists of the caller's
own, the last of which need not be empty. -/
structure SourceCall (s : Scope) (zs normal options : String) (before args : List String) :
    Prop where
  plain : ∀ a ∈ args, Plain a
  undefined : s ".zs" = none ∧ s "ZCC_OPTIONS" = none
  closed : Closed (s.value "CMAKE_CURRENT_SOURCE_DIR")
  names : VariableName zs ∧ VariableName normal ∧ VariableName options
  nodup : [zs, normal, options].Nodup
  own : zs ∉ sourceScratch ∧ normal ∉ sourceScratch ∧ options ∉ sourceScratch
  before : s.Holds options before

theorem SourceCall.ne (h : SourceCall s zs normal options before args) :
    (zs ≠ normal ∧ zs ≠ options) ∧ normal ≠ options := by
  have hnodup := h.nodup
  simp only [List.nodup_cons, List.mem_cons, List.not_mem_nil, or_false, not_or, not_false_eq_true,
    List.nodup_nil, and_true] at hnodup
  exact hnodup

/-- **The three lists are the classes** of the arguments. -/
structure Sorted (isZs : String → Bool) (s t : Scope) (zs normal options : String)
    (before args : List String) : Prop where
  zs_files : t.Holds zs ((zsFiles isZs args).map (inSource s))
  normal_files : t.Holds normal (normalFiles isZs args)
  options : t.Holds options (before ++ zccOptions isZs args)

/-- What stays true from argument to argument. -/
structure SourceState (s t : Scope) (zs normal options : String) (before done : List String) :
    Prop where
  sorted : Sorted hasZsExtension s t zs normal options before done
  found : t "_found_options" = some (if "ZCC_OPTIONS" ∈ done then "TRUE" else "FALSE")
  kept : ∀ x ∈ ["CMAKE_CURRENT_SOURCE_DIR", ".zs", "ZCC_OPTIONS"], t x = s x

theorem SourceState.agreesOff {u : Scope} {N done : List String}
    (h : SourceState s t zs normal options before done) (hu : AgreesOff N t u) (hzs : zs ∉ N)
    (hnormal : normal ∉ N) (hoptions : options ∉ N)
    (hN : ∀ x ∈ ["_found_options", "CMAKE_CURRENT_SOURCE_DIR", ".zs", "ZCC_OPTIONS"], x ∉ N) :
    SourceState s u zs normal options before done := by
  refine ⟨⟨h.sorted.zs_files.agreesOff hu hzs, h.sorted.normal_files.agreesOff hu hnormal,
    h.sorted.options.agreesOff hu hoptions⟩, ?_, fun x hx => ?_⟩
  · rw [hu _ (hN _ (by simp)), h.found]
  · rw [hu x (hN x (List.mem_cons_of_mem _ hx)), h.kept x hx]

theorem word_inSource (hclosed : Closed (s.value "CMAKE_CURRENT_SOURCE_DIR")) {a : String}
    (ha : Word a) : Word (inSource s a) := by
  rw [inSource]
  split
  · exact ha
  · refine ⟨?_, (hclosed.append (by decide)).append ha.closed⟩
    exact fun h => ha.nonempty (String.append_eq_empty_iff.1 h).2

section Round

variable {done : List String} {a : String}

theorem notMem_singleton_of_scratch {x y : String} (hx : x ∉ sourceScratch)
    (hy : y ∈ sourceScratch) : x ∉ [y] := by
  rw [List.mem_singleton]
  intro heq
  exact hx (heq ▸ hy)

/-- **A list grows by a word**: the rest of the state is kept, if the lists are the
classes again. -/
theorem SourceState.grown {x w : String} (ht : SourceState s t zs normal options before done)
    (hx : x ∉ sourceScratch) (hne : a ≠ "ZCC_OPTIONS")
    (hsorted : Sorted hasZsExtension s (t.listAppend x [w]) zs normal options before
      (done ++ [a])) :
    SourceState s (t.listAppend x [w]) zs normal options before (done ++ [a]) := by
  have hframe : AgreesOff [x] t (t.listAppend x [w]) := (AgreesOff.refl _ t).listAppend (by simp) _
  have hscratch : ∀ y ∈ sourceScratch, (t.listAppend x [w]) y = t y := by
    intro y hy
    refine hframe y ?_
    rw [List.mem_singleton]
    intro heq
    exact hx (heq ▸ hy)
  have hkept : ∀ y ∈ ["CMAKE_CURRENT_SOURCE_DIR", ".zs", "ZCC_OPTIONS"], y ∈ sourceScratch := by
    decide
  refine ⟨hsorted, ?_, fun y hy => ?_⟩
  · rw [hscratch _ (by decide), ht.found]
    simp [hne.symm]
  · rw [hscratch y (hkept y hy), ht.kept y hy]

/-- **A zscript file**, before or behind the token. -/
theorem SourceState.zsFile (h : SourceCall s zs normal options before args)
    (ht : SourceState s t zs normal options before done) (ha : Word a)
    (hzs : hasZsExtension a = true) : SourceState s (t.listAppend zs [inSource s a]) zs normal
      options before (done ++ [a]) := by
  obtain ⟨hzsClass, hnormalClass, hoptionsClass⟩ := @classes_append hasZsExtension done a
  obtain ⟨⟨hzn, hzo⟩, hno⟩ := h.ne
  have hne : a ≠ "ZCC_OPTIONS" := by
    intro heq
    rw [heq] at hzs
    exact absurd hzs (by decide)
  refine ht.grown h.own.1 hne ⟨?_, ?_, ?_⟩
  · rw [hzsClass, if_pos hzs, List.map_append, List.map_singleton]
    exact ht.sorted.zs_files.listAppend _ (by simpa using word_inSource h.closed ha)
  · rw [hnormalClass, if_neg (by simp [hzs]), List.append_nil]
    exact ht.sorted.normal_files.listAppend_of_ne (Ne.symm hzn) _
  · rw [hoptionsClass, if_neg (by simp [hzs]), List.append_nil]
    exact ht.sorted.options.listAppend_of_ne (Ne.symm hzo) _

/-- **The token** goes to no list. -/
theorem SourceState.token (h : SourceCall s zs normal options before args)
    (ht : SourceState s t zs normal options before done) :
    SourceState s (t.assign "_found_options" "TRUE") zs normal options before
      (done ++ ["ZCC_OPTIONS"]) := by
  obtain ⟨hzsClass, hnormalClass, hoptionsClass⟩ :=
    @classes_append hasZsExtension done "ZCC_OPTIONS"
  obtain ⟨hzsOwn, hnormalOwn, hoptionsOwn⟩ := h.own
  have hframe : AgreesOff ["_found_options"] t (t.assign "_found_options" "TRUE") :=
    (AgreesOff.refl _ t).assign (by simp) _
  have hnot : ∀ {x : String}, x ∉ sourceScratch → x ∉ ["_found_options"] := fun hx =>
    notMem_singleton_of_scratch hx (by decide)
  have hkept : ∀ y ∈ ["CMAKE_CURRENT_SOURCE_DIR", ".zs", "ZCC_OPTIONS"],
      y ∉ ["_found_options"] := by decide
  refine ⟨⟨?_, ?_, ?_⟩, ?_, fun y hy => ?_⟩
  · rw [hzsClass, if_neg (by decide), List.append_nil]
    exact ht.sorted.zs_files.agreesOff hframe (hnot hzsOwn)
  · rw [hnormalClass, if_neg (by simp), List.append_nil]
    exact ht.sorted.normal_files.agreesOff hframe (hnot hnormalOwn)
  · rw [hoptionsClass, if_neg (by simp), List.append_nil]
    exact ht.sorted.options.agreesOff hframe (hnot hoptionsOwn)
  · rw [assign_self, if_pos (by simp)]
  · rw [hframe y (hkept y hy), ht.kept y hy]

/-- **An option**, behind the token. -/
theorem SourceState.option (h : SourceCall s zs normal options before args)
    (ht : SourceState s t zs normal options before done) (ha : Word a)
    (hzs : hasZsExtension a = false) (hne : a ≠ "ZCC_OPTIONS") (hmem : "ZCC_OPTIONS" ∈ done) :
    SourceState s (t.listAppend options [a]) zs normal options before (done ++ [a]) := by
  obtain ⟨hzsClass, hnormalClass, hoptionsClass⟩ := @classes_append hasZsExtension done a
  obtain ⟨⟨hzn, hzo⟩, hno⟩ := h.ne
  refine ht.grown h.own.2.2 hne ⟨?_, ?_, ?_⟩
  · rw [hzsClass, if_neg (by simp [hzs]), List.append_nil]
    exact ht.sorted.zs_files.listAppend_of_ne hzo _
  · rw [hnormalClass, if_neg (by simp [hmem]), List.append_nil]
    exact ht.sorted.normal_files.listAppend_of_ne hno _
  · rw [hoptionsClass, if_pos ⟨hzs, hne, hmem⟩, ← List.append_assoc]
    exact ht.sorted.options.listAppend _ (by simpa using ha)

/-- **Another file**, before the token. -/
theorem SourceState.normalFile (h : SourceCall s zs normal options before args)
    (ht : SourceState s t zs normal options before done) (ha : Word a)
    (hzs : hasZsExtension a = false) (hne : a ≠ "ZCC_OPTIONS") (hmem : "ZCC_OPTIONS" ∉ done) :
    SourceState s (t.listAppend normal [a]) zs normal options before (done ++ [a]) := by
  obtain ⟨hzsClass, hnormalClass, hoptionsClass⟩ := @classes_append hasZsExtension done a
  obtain ⟨⟨hzn, hzo⟩, hno⟩ := h.ne
  refine ht.grown h.own.2.1 hne ⟨?_, ?_, ?_⟩
  · rw [hzsClass, if_neg (by simp [hzs]), List.append_nil]
    exact ht.sorted.zs_files.listAppend_of_ne hzn _
  · rw [hnormalClass, if_pos ⟨hzs, hne, hmem⟩]
    exact ht.sorted.normal_files.listAppend _ (by simpa using ha)
  · rw [hoptionsClass, if_neg (by simp [hmem]), List.append_nil]
    exact ht.sorted.options.listAppend_of_ne (Ne.symm hno) _

/-- The flag for the token. -/
theorem truthy_found
    (h : t "_found_options" = some (if "ZCC_OPTIONS" ∈ done then "TRUE" else "FALSE")) :
    t.truthy "_found_options" = decide ("ZCC_OPTIONS" ∈ done) := by
  rw [truthy, if_neg (by decide), if_neg (by decide), value_of_eq_some h]
  by_cases hmem : "ZCC_OPTIONS" ∈ done
  · rw [if_pos hmem, decide_eq_true hmem]
    decide
  · rw [if_neg hmem, decide_eq_false hmem]
    decide

/-- **What the conditions of a round say.** -/
theorem SourceState.conditions (h : SourceCall s zs normal options before args)
    (ht : SourceState s t zs normal options before done) (harg : t "arg" = some a)
    (hext : t "ARG_FILE_EXT" = some (extension a)) :
    t.strequal "ARG_FILE_EXT" ".zs" = hasZsExtension a ∧
      t.strequal "arg" "ZCC_OPTIONS" = decide (a = "ZCC_OPTIONS") ∧
      t.truthy "_found_options" = decide ("ZCC_OPTIONS" ∈ done) := by
  refine ⟨?_, ?_, ?_⟩
  · rw [strequal, deref_of_eq_some hext,
      deref_of_eq_none ((ht.kept ".zs" (by simp)).trans h.undefined.1), hasZsExtension]
  · rw [strequal, deref_of_eq_some harg,
      deref_of_eq_none ((ht.kept "ZCC_OPTIONS" (by simp)).trans h.undefined.2), beq_eq_decide]
  · exact truthy_found ht.found

/-- **One argument is put in its class.** -/
theorem sourceRound_returns (h : SourceCall s zs normal options before args) (ha : Plain a)
    (ht : SourceState s t zs normal options before done) (harg : t "arg" = some a) :
    Returns (sourceRound zs normal options t) fun u =>
      SourceState s u zs normal options before (done ++ [a]) := by
  obtain ⟨hzsOwn, hnormalOwn, hoptionsOwn⟩ := h.own
  have hexpand : t.expand "arg" = [a] := expand_of_value_eq (value_of_eq_some harg) ha.toWord
  let u := t.assign "ARG_FILE_EXT" (extension a)
  have hu : AgreesOff ["ARG_FILE_EXT"] t u := (AgreesOff.refl _ t).assign (by simp) _
  have hne : ∀ {x : String}, x ∉ sourceScratch → x ∉ ["ARG_FILE_EXT"] := fun hx =>
    notMem_singleton_of_scratch hx (by decide)
  have hustate := ht.agreesOff hu (hne hzsOwn) (hne hnormalOwn) (hne hoptionsOwn) (by decide)
  have huarg : u "arg" = some a := by rw [hu _ (by decide), harg]
  obtain ⟨hext, htoken, hfound⟩ := hustate.conditions h huarg (assign_self _ _ _)
  have huvalue : u.value "arg" = a := value_of_eq_some huarg
  have hdir : u.value "CMAKE_CURRENT_SOURCE_DIR" = s.value "CMAKE_CURRENT_SOURCE_DIR" := by
    rw [value, value, hustate.kept _ (by simp)]
  rw [sourceRound, hexpand, getFilenameComponent, ok_bind]
  simp only [show t.assign "ARG_FILE_EXT" (extension a) = u from rfl, hext, htoken, hfound, huvalue,
    hdir]
  -- in the order of the tests: the extension, the token, then the flag
  by_cases hzs : hasZsExtension a = true
  · have hround := hustate.zsFile h ha.toWord hzs
    rw [if_pos hzs]
    by_cases habsolute : isAbsolute a = true
    · rw [if_pos habsolute]
      rw [inSource, if_pos habsolute] at hround
      exact Returns.ok hround
    · rw [if_neg habsolute]
      rw [inSource, if_neg habsolute] at hround
      exact Returns.ok hround
  · rw [if_neg hzs]
    rw [Bool.not_eq_true] at hzs
    by_cases hne : a = "ZCC_OPTIONS"
    · rw [if_pos (decide_eq_true hne), hne]
      exact Returns.ok (hustate.token h)
    · rw [if_neg (by simpa using hne)]
      by_cases hmem : "ZCC_OPTIONS" ∈ done
      · rw [if_pos (decide_eq_true hmem)]
        exact Returns.ok (hustate.option h ha.toWord hzs hne hmem)
      · rw [if_neg (by simpa using hmem)]
        exact Returns.ok (hustate.normalFile h ha.toWord hzs hne hmem)

end Round

/-- **What the macro leaves behind**: the classes by the whole extension. -/
theorem zsGetSourcesAndOptions_returns (h : SourceCall s zs normal options before args) :
    Returns (zsGetSourcesAndOptions s zs normal options args) fun t =>
      Sorted hasZsExtension s t zs normal options before args := by
  obtain ⟨hzsOwn, hnormalOwn, hoptionsOwn⟩ := h.own
  have hnodup := h.nodup
  simp only [List.nodup_cons, List.mem_cons, List.not_mem_nil, or_false, not_or, not_false_eq_true,
    List.nodup_nil, and_true] at hnodup
  obtain ⟨⟨hzn, hzo⟩, hno⟩ := hnodup
  have hnot : ∀ {x y : String}, x ∉ sourceScratch → y ∈ sourceScratch → x ≠ y := fun hx hy hxy =>
    hx (hxy ▸ hy)
  -- the two lists are emptied, and the options kept as the caller has them
  let u := ((s.unset normal).unset zs).assign "_found_options" "FALSE"
  have hu : AgreesOff [normal, zs, "_found_options"] s u :=
    (((AgreesOff.refl _ s).unset (by simp)).unset (by simp)).assign (by simp) _
  have hevaluate : u.evaluate (joined args) = .ok args := evaluate_joined u h.plain
  rw [zsGetSourcesAndOptions]
  show Returns (u.evaluate (joined args) >>= _) _
  rw [hevaluate, ok_bind]
  refine foreach_returns (fun done t => SourceState s t zs normal options before done)
    ⟨⟨?_, ?_, ?_⟩, ?_, fun x hx => ?_⟩ ?_ ?_
  · refine Holds.of_eq_none ?_
    rw [assign_of_ne _ (hnot hzsOwn (by decide)), unset_self]
  · refine Holds.of_eq_none ?_
    rw [assign_of_ne _ (hnot hnormalOwn (by decide)), unset_of_ne _ (Ne.symm hzn), unset_self]
  · rw [show zccOptions hasZsExtension [] = [] from rfl, List.append_nil]
    refine h.before.agreesOff hu ?_
    simp only [List.mem_cons, List.not_mem_nil, or_false, not_or]
    exact ⟨Ne.symm hno, Ne.symm hzo, hnot hoptionsOwn (by decide)⟩
  · exact assign_self _ _ _
  · have hmem : x ∈ sourceScratch := (by decide : ∀ x ∈ ["CMAKE_CURRENT_SOURCE_DIR", ".zs",
      "ZCC_OPTIONS"], x ∈ sourceScratch) x hx
    refine hu x ?_
    simp only [List.mem_cons, List.not_mem_nil, or_false, not_or]
    exact ⟨(hnot hnormalOwn hmem).symm, (hnot hzsOwn hmem).symm, (by decide :
      ∀ x ∈ ["CMAKE_CURRENT_SOURCE_DIR", ".zs", "ZCC_OPTIONS"], x ≠ "_found_options") x hx⟩
  · rintro done a rest t hitems ht
    have harg : AgreesOff ["arg"] t (t.assign "arg" a) := (AgreesOff.refl _ t).assign (by simp) _
    have hnotArg : ∀ {x : String}, x ∉ sourceScratch → x ∉ ["arg"] := fun hx hmem =>
      hnot hx (by decide : "arg" ∈ sourceScratch) (List.mem_singleton.1 hmem)
    exact sourceRound_returns h (h.plain a (by simp [hitems]))
      (ht.agreesOff harg (hnotArg hzsOwn) (hnotArg hnormalOwn) (hnotArg hoptionsOwn) (by decide))
      (assign_self _ _ _)
  · intro t ht
    have harg : AgreesOff ["arg"] t (t.assign "arg" (u.value "arg")) :=
      (AgreesOff.refl _ t).assign (by simp) _
    have hnotArg : ∀ {x : String}, x ∉ sourceScratch → x ∉ ["arg"] := fun hx hmem =>
      hnot hx (by decide : "arg" ∈ sourceScratch) (List.mem_singleton.1 hmem)
    exact (ht.agreesOff harg (hnotArg hzsOwn) (hnotArg hnormalOwn) (hnotArg hoptionsOwn)
      (by decide)).sorted

/-- What the macro writes: the three lists and its own variables. -/
def sourceWritten (zs normal options : String) : List String :=
  [zs, normal, options, "arg", "ARG_FILE_EXT", "_found_options"]

theorem sourceRound_agreesOff {u : Scope} (h : sourceRound zs normal options t = .ok u) :
    AgreesOff (sourceWritten zs normal options) t u := by
  unfold sourceRound at h
  obtain ⟨v, hv, hu⟩ := bind_eq_ok_iff.1 h
  have hext : AgreesOff (sourceWritten zs normal options) t v := by
    unfold getFilenameComponent at hv
    split at hv
    · obtain rfl := Except.ok.inj hv
      exact (AgreesOff.refl _ t).assign (by simp [sourceWritten]) _
    · exact nomatch hv
  split at hu
  · split at hu
    · exact Except.ok.inj hu ▸ hext.listAppend (by simp [sourceWritten]) _
    · exact Except.ok.inj hu ▸ hext.listAppend (by simp [sourceWritten]) _
  · split at hu
    · exact Except.ok.inj hu ▸ hext.assign (by simp [sourceWritten]) _
    · split at hu
      · exact Except.ok.inj hu ▸ hext.listAppend (by simp [sourceWritten]) _
      · exact Except.ok.inj hu ▸ hext.listAppend (by simp [sourceWritten]) _

/-- **The macro writes nothing else**, whatever its arguments are. -/
theorem zsGetSourcesAndOptions_agreesOff
    (h : zsGetSourcesAndOptions s zs normal options args = .ok t) :
    AgreesOff (sourceWritten zs normal options) s t := by
  unfold zsGetSourcesAndOptions at h
  obtain ⟨items, -, hloop⟩ := bind_eq_ok_iff.1 h
  have hstart := ((AgreesOff.refl (sourceWritten zs normal options) s).unset (x := normal)
    (by simp [sourceWritten])).unset (x := zs) (by simp [sourceWritten])
  refine (hstart.assign (x := "_found_options") (by simp [sourceWritten]) "FALSE").trans
    (foreach_agreesOff hloop (by simp [sourceWritten]) fun _ _ => sourceRound_agreesOff)

/-! ## Names that end in `.zs` -/

/-- The name ends in `.zs`. -/
def endsInZs (a : String) : Bool := ".zs".toList.isSuffixOf (fileName a).toList

/-- A part of a list is as long as another one that has all of it only if it is
the same. -/
theorem length_filter_eq_iff {α : Type} {p q : α → Bool} {xs : List α}
    (h : ∀ x ∈ xs, p x = true → q x = true) :
    (xs.filter p).length = (xs.filter q).length ↔ ∀ x ∈ xs, q x = true → p x = true := by
  have hfilter : (xs.filter q).filter p = xs.filter p := by
    rw [List.filter_filter]
    refine List.filter_congr fun x hx => ?_
    rw [Bool.eq_iff_iff, Bool.and_eq_true]
    exact ⟨And.left, fun hp => ⟨hp, h x hx hp⟩⟩
  rw [← hfilter, List.length_filter_eq_length_iff]
  constructor
  · intro hall x hx hq
    exact hall x (List.mem_filter.2 ⟨hx, hq⟩)
  · intro hall x hx
    exact hall x (List.mem_filter.1 hx).1 (List.mem_filter.1 hx).2

/-- An extension `.zs` is the end of the name. -/
theorem endsInZs_of_hasZsExtension {a : String} (h : hasZsExtension a = true) :
    endsInZs a = true := by
  rw [hasZsExtension, beq_iff_eq] at h
  rw [endsInZs, ← stem_append_extension, h, List.isSuffixOf_iff_suffix, String.toList_append]
  exact List.suffix_append _ _

/-- Classes that agree on the arguments sort them alike. -/
theorem Sorted.congr {p q : String → Bool} (h : Sorted p s t zs normal options before args)
    (hpq : ∀ a ∈ args, p a = q a) : Sorted q s t zs normal options before args := by
  have hzs : zsFiles q args = zsFiles p args :=
    List.filter_congr fun a ha => (hpq a ha).symm
  have hnormal : normalFiles q args = normalFiles p args :=
    List.filter_congr fun a ha => by rw [hpq a ((List.takeWhile_sublist _).subset ha)]
  have hoptions : zccOptions q args = zccOptions p args :=
    List.filter_congr fun a ha => by rw [hpq a ((List.dropWhile_sublist _).subset ha)]
  exact ⟨hzs ▸ h.zs_files, hnormal ▸ h.normal_files, hoptions ▸ h.options⟩

/-- A caller with a list of its own. -/
def sourceScope : Scope := Scope.empty.assign "CMAKE_CURRENT_SOURCE_DIR" "/src"

theorem sourceCall_sourceScope {args : List String} (h : ∀ a ∈ args, Plain a) :
    SourceCall sourceScope "zs" "normal" "options" [] args :=
  ⟨h, ⟨rfl, rfl⟩, by decide, by decide, by decide, by decide, Holds.of_eq_none rfl⟩

end Zscript

end Supercell
