import Supercell.CMake.Scope
import Mathlib.Data.List.TakeWhile

/-!
# CMake — paths

`if(IS_ABSOLUTE)` and `get_filename_component` on the texts of paths. The
extension of a file begins at the first dot of its name, so it is the longest
one.
-/

namespace Supercell

namespace CMake

/-- `IS_ABSOLUTE path`. A path from the home directory counts too. -/
def isAbsolute (path : String) : Bool :=
  match path.toList with
  | c :: _ => c = '/' || c = '~'
  | [] => false

/-- What stands behind the last slash, as `NAME` gives it. -/
def fileName (path : String) : String :=
  String.ofList (path.toList.reverse.takeWhile (· ≠ '/')).reverse

/-- **The extension**, as `EXT` gives it: the name from its first dot on. -/
def extension (path : String) : String :=
  String.ofList ((fileName path).toList.dropWhile (· ≠ '.'))

/-- The name in front of its extension. -/
def stem (path : String) : String :=
  String.ofList ((fileName path).toList.takeWhile (· ≠ '.'))

/-- `get_filename_component(out path part)`, on the arguments that the path
gives. -/
def Scope.getFilenameComponent (s : Scope) (out : String) (part : String → String) :
    List String → Except Stop Scope
  | [path] => .ok (s.assign out (part path))
  | _ => .error (.rejected "get_filename_component")

theorem stem_append_extension (path : String) : stem path ++ extension path = fileName path := by
  rw [stem, extension, ← String.ofList_append, List.takeWhile_append_dropWhile,
    String.ofList_toList]

/-- A name has no slash. -/
theorem slash_notMem_fileName (path : String) : '/' ∉ (fileName path).toList := by
  intro h
  rw [fileName, String.toList_ofList, List.mem_reverse] at h
  simpa using List.mem_takeWhile_imp h

/-- What is not in a path is not in its name. -/
theorem notMem_fileName {path : String} {c : Char} (h : c ∉ path.toList) :
    c ∉ (fileName path).toList := by
  intro hmem
  rw [fileName, String.toList_ofList, List.mem_reverse] at hmem
  exact h (List.mem_reverse.1 ((List.takeWhile_sublist _).subset hmem))

/-- The name behind a directory. -/
theorem fileName_append {dir name : String} (h : '/' ∉ name.toList) :
    fileName (dir ++ "/" ++ name) = name := by
  have hall : ∀ c ∈ name.toList.reverse, decide (c ≠ '/') = true := by
    intro c hc
    rw [decide_eq_true_eq]
    rintro rfl
    exact h (List.mem_reverse.1 hc)
  have hlist : (dir ++ "/" ++ name).toList.reverse =
      name.toList.reverse ++ '/' :: dir.toList.reverse := by simp
  rw [fileName, hlist, List.takeWhile_append_of_pos hall]
  simp

/-! ## Absolute paths -/

/-- The components of a path, behind the piece read so far. -/
def components : List Char → List Char → List (List Char)
  | piece, [] => [piece]
  | piece, c :: cs => if c = '/' then piece :: components [] cs else components (piece ++ [c]) cs

/-- The components read so far, the last one first, with one more: empty ones
and `.` are left out, and `..` takes one back. -/
def pushComponent (stack : List (List Char)) (component : List Char) : List (List Char) :=
  if component = [] ∨ component = ['.'] then stack
  else if component = ['.', '.'] then stack.tail
  else component :: stack

/-- A path from its components. -/
def ofComponents (cs : List (List Char)) : String :=
  if cs = [] then "/" else String.ofList (cs.flatMap fun c => '/' :: c)

/-- **The absolute path**, as `ABSOLUTE` gives it. Paths from a home directory
are not looked up. -/
def absolutePath (dir path : String) : String :=
  let full := if isAbsolute path then path else dir ++ "/" ++ path
  ofComponents ((components [] full.toList).foldl pushComponent []).reverse

theorem components_append (piece xs ys : List Char) :
    components piece (xs ++ '/' :: ys) = components piece xs ++ components [] ys := by
  induction xs generalizing piece with
  | nil => simp [components]
  | cons c xs ih =>
    rw [List.cons_append, components, components]
    split
    · rw [ih, List.cons_append]
    · rw [ih]

theorem components_of_notMem {ys : List Char} (h : '/' ∉ ys) (piece : List Char) :
    components piece ys = [piece ++ ys] := by
  induction ys generalizing piece with
  | nil => simp [components]
  | cons c ys ih =>
    rw [List.mem_cons, not_or] at h
    rw [components, if_neg (Ne.symm h.1), ih h.2]
    simp

/-- The characters of the components are those of the path. -/
theorem mem_of_mem_components {piece cs : List Char} {component : List Char} {c : Char}
    (h : component ∈ components piece cs) (hc : c ∈ component) : c ∈ piece ∨ c ∈ cs := by
  induction cs generalizing piece with
  | nil =>
    rw [components, List.mem_singleton] at h
    exact .inl (h ▸ hc)
  | cons d cs ih =>
    rw [components] at h
    split at h
    · rcases List.mem_cons.1 h with rfl | h
      · exact .inl hc
      · exact .inr (List.mem_cons_of_mem d ((ih h).resolve_left List.not_mem_nil))
    · rcases ih h with hmem | hmem
      · rcases List.mem_append.1 hmem with hmem | hmem
        · exact .inl hmem
        · exact .inr (by rw [List.mem_singleton.1 hmem]; exact List.mem_cons_self)
      · exact .inr (List.mem_cons_of_mem d hmem)

theorem mem_of_mem_pushComponents {stack cs : List (List Char)} {component : List Char}
    (h : component ∈ cs.foldl pushComponent stack) : component ∈ stack ∨ component ∈ cs := by
  induction cs generalizing stack with
  | nil => exact .inl h
  | cons d cs ih =>
    rcases ih h with hmem | hmem
    · unfold pushComponent at hmem
      split at hmem
      · exact .inl hmem
      · split at hmem
        · exact .inl (List.mem_of_mem_tail hmem)
        · rcases List.mem_cons.1 hmem with rfl | hmem
          · exact .inr List.mem_cons_self
          · exact .inl hmem
    · exact .inr (List.mem_cons_of_mem d hmem)

/-- An absolute path has the characters of the path and the directory, and
slashes. -/
theorem mem_absolutePath {dir path : String} {c : Char} (h : c ∈ (absolutePath dir path).toList) :
    c = '/' ∨ c ∈ dir.toList ∨ c ∈ path.toList := by
  have hfull : ∀ {full : String}, c ∈ (ofComponents
      ((components [] full.toList).foldl pushComponent []).reverse).toList →
        c = '/' ∨ c ∈ full.toList := by
    intro full hmem
    unfold ofComponents at hmem
    split at hmem
    · exact .inl (by simpa using hmem)
    · rw [String.toList_ofList, List.mem_flatMap] at hmem
      obtain ⟨component, hcomponent, hmem⟩ := hmem
      rcases List.mem_cons.1 hmem with rfl | hmem
      · exact .inl rfl
      · have hcomponent := (mem_of_mem_pushComponents (List.mem_reverse.1 hcomponent)).resolve_left
          List.not_mem_nil
        exact .inr ((mem_of_mem_components hcomponent hmem).resolve_left List.not_mem_nil)
  unfold absolutePath at h
  dsimp only at h
  split at h
  · exact (hfull h).imp_right .inr
  · rcases hfull h with hslash | hmem
    · exact .inl hslash
    · simp only [String.toList_append, List.mem_append] at hmem
      rcases hmem with (hmem | hmem) | hmem
      · exact .inr (.inl hmem)
      · exact .inl (by simpa using hmem)
      · exact .inr (.inr hmem)

/-- It begins with a slash. -/
theorem exists_absolutePath_eq (dir path : String) :
    ∃ cs, (absolutePath dir path).toList = '/' :: cs := by
  have hof : ∀ cs : List (List Char), ∃ rest, (ofComponents cs).toList = '/' :: rest := by
    rintro (_ | ⟨c, cs⟩)
    · exact ⟨[], rfl⟩
    · rw [ofComponents, if_neg (List.cons_ne_nil c cs), String.toList_ofList, List.flatMap_cons]
      exact ⟨_, rfl⟩
  exact hof _

theorem isAbsolute_absolutePath (dir path : String) : isAbsolute (absolutePath dir path) = true := by
  obtain ⟨cs, hcs⟩ := exists_absolutePath_eq dir path
  rw [isAbsolute, hcs]
  rfl

/-! ## Normal paths -/

/-- A component that stays as it is. -/
structure Proper (component : List Char) : Prop where
  nonempty : component ≠ []
  dot : component ≠ ['.']
  dots : component ≠ ['.', '.']
  slash : '/' ∉ component

theorem Proper.push {component : List Char} (h : Proper component) (stack : List (List Char)) :
    pushComponent stack component = component :: stack := by
  rw [pushComponent, if_neg (not_or.2 ⟨h.nonempty, h.dot⟩), if_neg h.dots]

/-- Between two slashes there is no slash. -/
theorem slash_notMem_components {piece cs : List Char} (h : '/' ∉ piece) :
    ∀ component ∈ components piece cs, '/' ∉ component := by
  induction cs generalizing piece with
  | nil =>
    intro component hcomponent
    rw [components, List.mem_singleton] at hcomponent
    exact hcomponent ▸ h
  | cons c cs ih =>
    intro component hcomponent
    rw [components] at hcomponent
    split at hcomponent
    · rcases List.mem_cons.1 hcomponent with rfl | hcomponent
      · exact h
      · exact ih List.not_mem_nil component hcomponent
    · rename_i hne
      refine ih ?_ component hcomponent
      rw [List.mem_append, List.mem_singleton, not_or]
      exact ⟨h, Ne.symm hne⟩

/-- What is pushed is proper. -/
theorem proper_pushComponents {stack cs : List (List Char)} (hstack : ∀ c ∈ stack, Proper c)
    (hcs : ∀ c ∈ cs, '/' ∉ c) : ∀ c ∈ cs.foldl pushComponent stack, Proper c := by
  induction cs generalizing stack with
  | nil => exact hstack
  | cons d cs ih =>
    refine ih ?_ fun c hc => hcs c (List.mem_cons_of_mem d hc)
    intro c hc
    unfold pushComponent at hc
    split at hc
    · exact hstack c hc
    · rename_i hne
      split at hc
      · exact hstack c (List.mem_of_mem_tail hc)
      · rename_i hdots
        rcases List.mem_cons.1 hc with rfl | hc
        · exact ⟨(not_or.1 hne).1, (not_or.1 hne).2, hdots, hcs c List.mem_cons_self⟩
        · exact hstack c hc

theorem foldl_push_proper {cs : List (List Char)} (hcs : ∀ c ∈ cs, Proper c)
    (stack : List (List Char)) : cs.foldl pushComponent stack = cs.reverse ++ stack := by
  induction cs generalizing stack with
  | nil => rfl
  | cons c cs ih =>
    rw [List.foldl_cons, (hcs c List.mem_cons_self).push, ih fun d hd => hcs d
      (List.mem_cons_of_mem c hd), List.reverse_cons, List.append_assoc, List.singleton_append]

/-- A path is divided into the components that it is made of. -/
theorem components_flatMap {cs : List (List Char)} (hcs : ∀ c ∈ cs, Proper c) (piece : List Char)
    (hpiece : '/' ∉ piece) :
    components [] (piece ++ cs.flatMap fun c => '/' :: c) = piece :: cs := by
  induction cs generalizing piece with
  | nil => rw [List.flatMap_nil, List.append_nil, components_of_notMem hpiece, List.nil_append]
  | cons c cs ih =>
    have hc := hcs c List.mem_cons_self
    rw [List.flatMap_cons, List.cons_append, components_append,
      components_of_notMem hpiece, List.nil_append, ih (fun d hd => hcs d
      (List.mem_cons_of_mem c hd)) c hc.slash, List.singleton_append]

/-- A path of proper components is absolute, and its own absolute form. -/
theorem absolutePath_ofComponents {cs : List (List Char)} (hcs : ∀ c ∈ cs, Proper c)
    (dir : String) : absolutePath dir (ofComponents cs) = ofComponents cs := by
  by_cases hnil : cs = []
  · subst hnil
    have habsolute : isAbsolute "/" = true := by decide
    have hcomponents : components [] "/".toList = [[], []] := by decide
    unfold absolutePath ofComponents
    rw [if_pos rfl]
    dsimp only
    rw [if_pos habsolute, hcomponents]
    rfl
  · have hlist : (ofComponents cs).toList = cs.flatMap fun c => '/' :: c := by
      rw [ofComponents, if_neg hnil, String.toList_ofList]
    have habsolute : isAbsolute (ofComponents cs) = true := by
      obtain ⟨d, ds, rfl⟩ := List.exists_cons_of_ne_nil hnil
      rw [isAbsolute, hlist, List.flatMap_cons]
      rfl
    have hcomponents : components [] (ofComponents cs).toList = [] :: cs := by
      rw [hlist]
      exact components_flatMap hcs [] List.not_mem_nil
    unfold absolutePath
    dsimp only
    rw [if_pos habsolute, hcomponents, List.foldl_cons, pushComponent, if_pos (.inl rfl),
      foldl_push_proper hcs, List.append_nil, List.reverse_reverse]

/-- **Absolute paths are their own absolute forms.** -/
theorem absolutePath_absolutePath (dir path : String) :
    absolutePath dir (absolutePath dir path) = absolutePath dir path := by
  have hproper : ∀ full : String, ∀ c ∈
      ((components [] full.toList).foldl pushComponent []).reverse, Proper c := by
    intro full c hc
    exact proper_pushComponents (by simp) (slash_notMem_components List.not_mem_nil) c
      (List.mem_reverse.1 hc)
  exact absolutePath_ofComponents (hproper _) dir

/-- What stands behind the last slash of a path is its last component. -/
theorem toList_eq_append_fileName (path : String) : ∃ front,
    path.toList = front ++ (fileName path).toList ∧ (front = [] ∨ front.getLast? = some '/') := by
  have hsplit := List.takeWhile_append_dropWhile (p := fun c => decide (c ≠ '/'))
    (l := path.toList.reverse)
  refine ⟨(path.toList.reverse.dropWhile fun c => decide (c ≠ '/')).reverse, ?_, ?_⟩
  · rw [fileName, String.toList_ofList, ← List.reverse_append, hsplit, List.reverse_reverse]
  · cases hdrop : path.toList.reverse.dropWhile fun c => decide (c ≠ '/') with
    | nil => exact .inl rfl
    | cons c cs =>
      right
      have hc := List.head?_dropWhile_not (fun c => decide (c ≠ '/')) path.toList.reverse
      rw [hdrop] at hc
      rw [List.getLast?_reverse, List.head?_cons]
      simpa using hc

/-- **The name stays** when a path is made absolute. -/
theorem fileName_absolutePath {dir path : String} (hne : fileName path ≠ "")
    (hdot : fileName path ≠ ".") (hdots : fileName path ≠ "..") :
    fileName (absolutePath dir path) = fileName path := by
  obtain ⟨front, hfront, hend⟩ := toList_eq_append_fileName path
  have hslash := slash_notMem_fileName path
  -- the last component of the whole path is the name
  have hlast : ∃ cs, components [] (if isAbsolute path then path else dir ++ "/" ++ path).toList =
      cs ++ [(fileName path).toList] := by
    have hof : ∀ zs : List Char, (zs = [] ∨ zs.getLast? = some '/') →
        ∃ cs, components [] (zs ++ (fileName path).toList) = cs ++ [(fileName path).toList] := by
      rintro zs (rfl | hzs)
      · exact ⟨[], by rw [List.nil_append, components_of_notMem hslash, List.nil_append,
          List.nil_append]⟩
      · obtain ⟨ws, rfl⟩ : ∃ ws, zs = ws ++ ['/'] := by
          rw [List.getLast?_eq_some_iff] at hzs
          exact hzs
        refine ⟨components [] ws, ?_⟩
        rw [List.append_assoc, List.singleton_append, components_append,
          components_of_notMem hslash, List.nil_append]
    split
    · rw [hfront]
      exact hof front hend
    · have hlist : (dir ++ "/" ++ path).toList =
          (dir.toList ++ ['/'] ++ front) ++ (fileName path).toList := by
        rw [String.toList_append, String.toList_append, hfront]
        simp
      rw [hlist]
      refine hof _ (.inr ?_)
      rcases hend with rfl | hend
      · simp
      · rw [List.getLast?_append, hend]
        rfl
  obtain ⟨cs, hcs⟩ := hlast
  have hpush : ∀ stack, pushComponent stack (fileName path).toList =
      (fileName path).toList :: stack := by
    intro stack
    have hne' : (fileName path).toList ≠ [] := fun h => hne (String.toList_inj.1 h)
    have hdot' : (fileName path).toList ≠ ['.'] := fun h =>
      hdot (String.toList_inj.1 (h.trans (by decide)))
    have hdots' : (fileName path).toList ≠ ['.', '.'] := fun h =>
      hdots (String.toList_inj.1 (h.trans (by decide)))
    rw [pushComponent, if_neg (not_or.2 ⟨hne', hdot'⟩), if_neg hdots']
  obtain ⟨rest, hrest⟩ : ∃ rest, absolutePath dir path = rest ++ "/" ++ fileName path := by
    refine ⟨String.ofList
      ((cs.foldl pushComponent []).reverse.flatMap fun c => '/' :: c), ?_⟩
    unfold absolutePath ofComponents
    dsimp only
    rw [hcs, List.foldl_append, List.foldl_cons, List.foldl_nil, hpush, List.reverse_cons,
      if_neg (by simp), ← String.toList_inj]
    simp
  rw [hrest, fileName_append hslash]

end CMake

end Supercell
