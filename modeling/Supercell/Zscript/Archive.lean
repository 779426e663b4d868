import Supercell.CMake.Path
import Supercell.CMake.Scope

/-!
# The archive of a bitcode target

`UsingZcc.cmake`: `LLVMBC_TO_X86` makes a target that compiles a bitcode file
and puts the object into an archive, and `TARGET_ADD_LLVMBC` links the archive
to a module. The target has no output that could be up to date: its commands
run in every build. The archive stays between the builds, and `ar cq` adds a
member to it without looking for one of the same name.
-/

namespace Supercell

namespace Zscript

open CMake

/-! ## The macros -/

/-- A command of the target. -/
inductive ObjectCommand where
  /-- `${ZILLIANS_LLC} -relocation-model=pic -o out input flags`. -/
  | llc (program out input : String) (flags : List String)
  /-- `compiler input -o out -c -fPIC`. -/
  | compile (compiler : List String) (input out : String)
  /-- `ar cq archive member`. -/
  | append (archive member : String)
  deriving DecidableEq, Repr

/-- The words of the command line. -/
def ObjectCommand.words : ObjectCommand → List String
  | llc program out input flags => [program, "-relocation-model=pic", "-o", out, input] ++ flags
  | compile compiler input out => compiler ++ [input, "-o", out, "-c", "-fPIC"]
  | append archive member => ["ar", "cq", archive, member]

/-- A target without outputs. -/
structure ObjectTarget where
  name : String
  depends : List String
  commands : List ObjectCommand
  deriving DecidableEq, Repr

/-- `add_custom_target`, which takes no name with a slash. -/
def addCustomTarget (target : ObjectTarget) : Except Stop ObjectTarget :=
  if '/' ∈ target.name.toList ∨ '\\' ∈ target.name.toList then
    .error (.rejected "add_custom_target")
  else .ok target

/-- The target of a bitcode, by `ZILLIANS_WS_DEBUG`. The shell takes the quotes
off `-march="c"`. -/
def objectTarget (debug : Bool) (zilliansLlc tgtName bcPath : String) : ObjectTarget where
  name := tgtName
  depends := [bcPath, zilliansLlc]
  commands :=
    if debug then
      [.llc zilliansLlc (bcPath ++ ".c") bcPath ["-march=c"],
        .compile ["gcc", "-g"] (bcPath ++ ".c") (bcPath ++ ".o"),
        .append (tgtName ++ ".a") (bcPath ++ ".o")]
    else
      [.llc zilliansLlc (bcPath ++ ".s") bcPath ["-march=x86-64", "-filetype=asm"],
        .compile ["g++"] (bcPath ++ ".s") (bcPath ++ ".o"),
        .append (tgtName ++ ".a") (bcPath ++ ".o")]

/-- **`LLVMBC_TO_X86`**: the library that `OUTPUT_LIB` is set to, and the
target. -/
def llvmbcToX86 (s : Scope) (tgtName bcPath : String) : Except Stop (String × ObjectTarget) := do
  let tgtName ← s.evaluateQuoted tgtName
  let bcPath ← s.evaluateQuoted bcPath
  let target ← addCustomTarget
    (objectTarget (s.truthy "ZILLIANS_WS_DEBUG") (s.value "ZILLIANS_LLC") tgtName bcPath)
  return (s.value "CMAKE_CURRENT_BINARY_DIR" ++ "/" ++ tgtName ++ ".a", target)

/-- What `TARGET_ADD_LLVMBC` gives a module: a target to depend on, and a
library to link. -/
structure LinkedModule where
  name : String
  target : ObjectTarget
  library : String
  deriving DecidableEq, Repr

/-- **`TARGET_ADD_LLVMBC`**. -/
def targetAddLlvmbc (s : Scope) (tgt bcPath : String) : Except Stop LinkedModule := do
  let tgt ← s.evaluateQuoted tgt
  let bcPath ← s.evaluateQuoted bcPath
  let (library, target) ← llvmbcToX86 s (tgt ++ "-bc-static") bcPath
  return { name := tgt, target := target, library := library }

/-! ## The tools -/

section Tools

variable (Bitcode Source Symbol Code : Type)

/-- An object file: the code of the symbols it defines. -/
abbrev Object := Symbol → Option Code

/-- A member of an archive, with the number of the build that compiled it. -/
structure Member where
  name : String
  build : ℕ
  object : Object Symbol Code

/-- What a file holds. -/
inductive Content where
  | bitcode (bitcode : Bitcode)
  | source (source : Source)
  | object (build : ℕ) (object : Object Symbol Code)
  | archive (members : List (Member Symbol Code))

/-- The files of a build directory, by their absolute paths. -/
abbrev Files := String → Option (Content Bitcode Source Symbol Code)

/-- The compilers, by the words that select what they do. -/
structure Toolchain where
  llc (flags : List String) : Bitcode → Source
  compile (compiler : List String) : Source → Object Symbol Code

end Tools

/-- A path of a command that runs in a directory. -/
def within (directory path : String) : String :=
  if path.toList.head? = some '/' then path else directory ++ "/" ++ path

variable {Bitcode Source Symbol Code : Type} (t : Toolchain Bitcode Source Symbol Code)
  (directory : String)

/-- One command in a build. An archive that is not there is created. -/
def ObjectCommand.run (build : ℕ) (files : Files Bitcode Source Symbol Code) :
    ObjectCommand → Option (Files Bitcode Source Symbol Code)
  | llc _ out input flags =>
    match files (within directory input) with
    | some (.bitcode b) =>
      some (Function.update files (within directory out) (some (.source (t.llc flags b))))
    | _ => none
  | compile compiler input out =>
    match files (within directory input) with
    | some (.source s) =>
      some (Function.update files (within directory out)
        (some (.object build (t.compile compiler s))))
    | _ => none
  | append archive member =>
    match files (within directory member), files (within directory archive) with
    | some (.object k o), none =>
      some (Function.update files (within directory archive)
        (some (.archive [⟨fileName member, k, o⟩])))
    | some (.object k o), some (.archive members) =>
      some (Function.update files (within directory archive)
        (some (.archive (members ++ [⟨fileName member, k, o⟩]))))
    | _, _ => none

/-- A build: the bitcode is written, and the commands run in order. -/
def buildOnce (target : ObjectTarget) (bcPath : String) (build : ℕ)
    (files : Files Bitcode Source Symbol Code) (b : Bitcode) :
    Option (Files Bitcode Source Symbol Code) :=
  target.commands.foldlM (fun files c => c.run t directory build files)
    (Function.update files (within directory bcPath) (some (.bitcode b)))

/-- The builds from a number on, one after the other. -/
def buildAll (target : ObjectTarget) (bcPath : String) :
    ℕ → Files Bitcode Source Symbol Code → List Bitcode →
      Option (Files Bitcode Source Symbol Code)
  | _, files, [] => some files
  | build, files, b :: bs =>
    (buildOnce t directory target bcPath build files b).bind fun files =>
      buildAll target bcPath (build + 1) files bs

/-- The code that the linker takes for a symbol: the first member that defines
it. -/
def resolveSymbol (members : List (Member Symbol Code)) (symbol : Symbol) : Option Code :=
  members.findSome? fun m => m.object symbol

/-- The object that the target compiles from a bitcode. -/
def compiled (debug : Bool) (b : Bitcode) : Object Symbol Code :=
  if debug then t.compile ["gcc", "-g"] (t.llc ["-march=c"] b)
  else t.compile ["g++"] (t.llc ["-march=x86-64", "-filetype=asm"] b)

/-- **The library is the newest one** after the builds of some bitcodes and
another: the symbols that the newest defines are resolved to its code, and no
member is from an earlier build. -/
def LinksNewest (debug : Bool) (target : ObjectTarget) (bcPath library : String)
    (files : Files Bitcode Source Symbol Code) (earlier : List Bitcode) (newest : Bitcode) : Prop :=
  ∃ files' members, buildAll t directory target bcPath 1 files (earlier ++ [newest]) = some files' ∧
    files' library = some (.archive members) ∧
    (∀ symbol code, compiled t debug newest symbol = some code →
      resolveSymbol members symbol = some code) ∧
    ∀ m ∈ members, m.build = earlier.length + 1

/-! ## One build -/

section Builds

variable {t directory} {debug : Bool} {zilliansLlc tgtName bcPath library : String}
  {target : ObjectTarget} {files : Files Bitcode Source Symbol Code}

/-- The member that a build adds. -/
def memberOf (t : Toolchain Bitcode Source Symbol Code) (debug : Bool) (bcPath : String)
    (build : ℕ) (b : Bitcode) : Member Symbol Code :=
  ⟨fileName (bcPath ++ ".o"), build, compiled t debug b⟩

/-- The members of an archive, if it is there. -/
def membersOf : Option (Content Bitcode Source Symbol Code) →
    Option (List (Member Symbol Code))
  | none => some []
  | some (.archive members) => some members
  | _ => none

theorem within_ne {path archive : String} (h : path.toList.getLast? ≠ archive.toList.getLast?)
    (hpath : path ≠ "") (harchive : archive ≠ "") :
    within directory path ≠ within directory archive := by
  have hlast : ∀ {p : String}, p ≠ "" →
      (within directory p).toList.getLast? = p.toList.getLast? := by
    intro p hp
    have hne : p.toList ≠ [] := fun hnil => hp (String.toList_inj.1 hnil)
    unfold within
    split
    · rfl
    · rw [String.toList_append, List.getLast?_append]
      cases hp' : p.toList.getLast? with
      | none => exact absurd (List.getLast?_eq_none_iff.1 hp') hne
      | some c => rfl
  intro heq
  have hpaths := congrArg (fun p => p.toList.getLast?) heq
  simp only [hlast hpath, hlast harchive] at hpaths
  exact h hpaths

theorem getLast?_append_suffix (path suffix : String) {c : Char}
    (h : suffix.toList.getLast? = some c) : (path ++ suffix).toList.getLast? = some c := by
  rw [String.toList_append, List.getLast?_append, h]
  rfl

theorem append_ne_empty {path suffix : String} (h : suffix ≠ "") : path ++ suffix ≠ "" :=
  fun hnil => h (String.append_eq_empty_iff.1 hnil).2

/-- Beside the archive stand files with other names. -/
theorem within_suffix_ne (path archive suffix : String) {c : Char}
    (h : suffix.toList.getLast? = some c) (hc : c ≠ 'a') :
    within directory (path ++ suffix) ≠ within directory (archive ++ ".a") := by
  have hne : suffix ≠ "" := by
    rintro rfl
    exact nomatch h
  refine within_ne ?_ (append_ne_empty hne) (append_ne_empty (by decide))
  rw [getLast?_append_suffix _ _ h, getLast?_append_suffix (c := 'a') _ _ (by decide)]
  exact fun heq => hc (Option.some.inj heq)

/-- **A target and its library**, for texts that the parameters gave. -/
structure Archived (directory : String) (debug : Bool) (zilliansLlc tgtName bcPath : String)
    (library : String) (target : ObjectTarget) : Prop where
  library_eq : library = within directory (tgtName ++ ".a")
  target_eq : target = objectTarget debug zilliansLlc tgtName bcPath

/-- The library is the archive that the target writes. -/
theorem llvmbcToX86_eq_ok {s : Scope} {bc : String}
    (h : llvmbcToX86 s tgtName bcPath = .ok (library, target))
    (hbc : s.evaluateQuoted bcPath = .ok bc) : ∃ name,
      Archived (s.value "CMAKE_CURRENT_BINARY_DIR") (s.truthy "ZILLIANS_WS_DEBUG")
        (s.value "ZILLIANS_LLC") name bc library target := by
  obtain ⟨name, hname, h⟩ := bind_eq_ok_iff.1 h
  rw [hbc, ok_bind] at h
  obtain ⟨u, htarget, hresult⟩ := bind_eq_ok_iff.1 h
  obtain ⟨rfl, rfl⟩ := Prod.mk.inj (Except.ok.inj hresult)
  unfold addCustomTarget at htarget
  split at htarget
  · exact nomatch htarget
  · rename_i hslash
    refine ⟨name, ?_, (Except.ok.inj htarget).symm⟩
    rw [within, if_neg ?_, String.append_assoc]
    intro hhead
    rw [String.toList_append, List.head?_append] at hhead
    cases hlist : name.toList with
    | nil =>
      rw [hlist] at hhead
      exact absurd hhead (by decide)
    | cons c cs =>
      rw [hlist] at hhead
      obtain rfl := Option.some.inj hhead
      exact hslash (.inl (by simp [objectTarget, hlist]))

/-- Both branches compile the bitcode by way of a file beside it. -/
theorem commands_objectTarget (debug : Bool) (zilliansLlc tgtName bcPath : String) :
    ∃ suffix flags compiler,
      (suffix.toList.getLast? = some 'c' ∨ suffix.toList.getLast? = some 's') ∧
      (∀ (t : Toolchain Bitcode Source Symbol Code) b,
        compiled t debug b = t.compile compiler (t.llc flags b)) ∧
      (objectTarget debug zilliansLlc tgtName bcPath).commands =
        [.llc zilliansLlc (bcPath ++ suffix) bcPath flags,
          .compile compiler (bcPath ++ suffix) (bcPath ++ ".o"),
          .append (tgtName ++ ".a") (bcPath ++ ".o")] := by
  cases debug with
  | true => exact ⟨".c", ["-march=c"], ["gcc", "-g"], .inl (by decide), fun _ _ => rfl, rfl⟩
  | false =>
    exact ⟨".s", ["-march=x86-64", "-filetype=asm"], ["g++"], .inr (by decide), fun _ _ => rfl, rfl⟩

/-- **A build adds a member** to the archive, whatever stands in it; and it
fails where the bitcode takes the archive's place. -/
theorem buildOnce_eq (h : Archived directory debug zilliansLlc tgtName bcPath library
    target) (build : ℕ) (b : Bitcode) {members : List (Member Symbol Code)}
    (hmembers : membersOf (files library) = some members) :
    if within directory bcPath = library then
      buildOnce t directory target bcPath build files b = none
    else ∃ files', buildOnce t directory target bcPath build files b = some files' ∧
      files' library = some (.archive (members ++ [memberOf t debug bcPath build b])) := by
  obtain ⟨rfl, rfl⟩ := h
  obtain ⟨suffix, flags, compiler, hsuffix, hcompiled, hcommands⟩ :=
    commands_objectTarget debug zilliansLlc tgtName bcPath
  have hsource : within directory (tgtName ++ ".a") ≠ within directory (bcPath ++ suffix) := by
    rcases hsuffix with hsuffix | hsuffix <;>
      exact (within_suffix_ne _ _ _ hsuffix (by decide)).symm
  have hobject : within directory (tgtName ++ ".a") ≠ within directory (bcPath ++ ".o") :=
    (within_suffix_ne (c := 'o') _ _ _ (by decide) (by decide)).symm
  -- the state in front of `ar`
  have hrun : buildOnce t directory (objectTarget debug zilliansLlc tgtName bcPath) bcPath build
      files b =
      (ObjectCommand.append (tgtName ++ ".a") (bcPath ++ ".o")).run t directory build
        (Function.update (Function.update (Function.update files (within directory bcPath)
          (some (.bitcode b))) (within directory (bcPath ++ suffix))
            (some (.source (t.llc flags b)))) (within directory (bcPath ++ ".o"))
              (some (.object build (t.compile compiler (t.llc flags b))))) := by
    rw [buildOnce, hcommands]
    simp [List.foldlM, ObjectCommand.run]
  rw [hrun]
  simp only [ObjectCommand.run, Function.update_self, Function.update_of_ne hobject,
    Function.update_of_ne hsource]
  by_cases hbc : within directory bcPath = within directory (tgtName ++ ".a")
  · rw [if_pos hbc, hbc, Function.update_self]
  · rw [if_neg hbc, Function.update_of_ne (Ne.symm hbc)]
    rw [memberOf, hcompiled]
    cases hold : files (within directory (tgtName ++ ".a")) with
    | none =>
      rw [hold] at hmembers
      obtain rfl := Option.some.inj hmembers
      exact ⟨_, rfl, Function.update_self _ _ _⟩
    | some content =>
      rw [hold] at hmembers
      cases content with
      | archive ms =>
        obtain rfl := Option.some.inj hmembers
        exact ⟨_, rfl, Function.update_self _ _ _⟩
      | bitcode _ => exact nomatch hmembers
      | source _ => exact nomatch hmembers
      | object _ _ => exact nomatch hmembers

/-! ## All builds -/

/-- The members of some builds, numbered from one on. -/
def membersFrom (t : Toolchain Bitcode Source Symbol Code) (debug : Bool) (bcPath : String) :
    ℕ → List Bitcode → List (Member Symbol Code)
  | _, [] => []
  | build, b :: bs => memberOf t debug bcPath build b :: membersFrom t debug bcPath (build + 1) bs

/-- **The archive keeps a member of every build.** -/
theorem buildAll_eq (h : Archived directory debug zilliansLlc tgtName bcPath library
    target) (hne : within directory bcPath ≠ library) (bs : List Bitcode)
    (build : ℕ) {members : List (Member Symbol Code)}
    (hmembers : membersOf (files library) = some members) :
    ∃ files', buildAll t directory target bcPath build files bs = some files' ∧
      membersOf (files' library) = some (members ++ membersFrom t debug bcPath build bs) := by
  induction bs generalizing build files members with
  | nil => exact ⟨files, rfl, by rw [hmembers, membersFrom, List.append_nil]⟩
  | cons b bs ih =>
    have hstep := buildOnce_eq (t := t) h build b hmembers
    rw [if_neg hne] at hstep
    obtain ⟨files₁, hbuild, hlibrary⟩ := hstep
    have hmembers₁ : membersOf (files₁ library) =
        some (members ++ [memberOf t debug bcPath build b]) := by rw [hlibrary, membersOf]
    obtain ⟨files₂, hrest, hmembers₂⟩ := ih (build + 1) hmembers₁
    refine ⟨files₂, ?_, ?_⟩
    · rw [buildAll, hbuild, Option.bind_some, hrest]
    · rw [hmembers₂, membersFrom, List.append_assoc, List.singleton_append]

theorem resolveSymbol_membersFrom (build : ℕ) (bs : List Bitcode) (symbol : Symbol) :
    resolveSymbol (membersFrom t debug bcPath build bs) symbol =
      bs.findSome? fun b => compiled t debug b symbol := by
  induction bs generalizing build with
  | nil => rfl
  | cons b bs ih =>
    rw [membersFrom, resolveSymbol, List.findSome?_cons, List.findSome?_cons, memberOf]
    rw [← ih (build + 1), resolveSymbol]

/-- **A symbol is resolved to the code of the first build that defined it.** -/
theorem resolveSymbol_buildAll (h : Archived directory debug zilliansLlc tgtName bcPath library
    target) (hne : within directory bcPath ≠ library) (hclean : files library = none)
    (bs : List Bitcode) : ∃ files' members,
      buildAll t directory target bcPath 1 files bs = some files' ∧
        membersOf (files' library) = some members ∧
        ∀ symbol, resolveSymbol members symbol = bs.findSome? fun b => compiled t debug b symbol := by
  have hnone : membersOf (files library) = some [] := by rw [hclean, membersOf]
  obtain ⟨files', hbuild, hmembers⟩ := buildAll_eq (t := t) h hne bs 1 hnone
  exact ⟨files', _, hbuild, hmembers, resolveSymbol_membersFrom 1 bs⟩

/-- **When an incremental build links the newest object**: in the first build
of a directory only. -/
theorem linksNewest_iff (t : Toolchain Bitcode Source Symbol Code) {s : Scope} {bc : String}
    (h : llvmbcToX86 s tgtName bcPath = .ok (library, target))
    (hbc : s.evaluateQuoted bcPath = .ok bc) (hclean : files library = none)
    (earlier : List Bitcode) (newest : Bitcode) :
    LinksNewest t (s.value "CMAKE_CURRENT_BINARY_DIR") (s.truthy "ZILLIANS_WS_DEBUG") target bc
        library files earlier newest ↔
      within (s.value "CMAKE_CURRENT_BINARY_DIR") bc ≠ library ∧ earlier = [] := by
  obtain ⟨name, h⟩ := llvmbcToX86_eq_ok h hbc
  generalize s.value "CMAKE_CURRENT_BINARY_DIR" = directory at h ⊢
  generalize s.truthy "ZILLIANS_WS_DEBUG" = debug at h ⊢
  have hnone : membersOf (files library) = some [] := by rw [hclean, membersOf]
  constructor
  · rintro ⟨files', members, hbuild, hlibrary, -, hnew⟩
    have hne : within directory bc ≠ library := by
      intro heq
      cases hbs : earlier ++ [newest] with
      | nil => exact absurd hbs (by simp)
      | cons b bs =>
        have hfail := buildOnce_eq (t := t) h 1 b hnone
        rw [if_pos heq] at hfail
        rw [hbs, buildAll, hfail] at hbuild
        exact nomatch hbuild
    refine ⟨hne, ?_⟩
    obtain ⟨files₂, hbuild₂, hmembers⟩ := buildAll_eq (t := t) h hne (earlier ++ [newest]) 1 hnone
    obtain rfl := Option.some.inj (hbuild.symm.trans hbuild₂)
    rw [hlibrary, membersOf, List.nil_append] at hmembers
    obtain rfl := Option.some.inj hmembers
    cases earlier with
    | nil => rfl
    | cons b bs =>
      -- the member of the first build is still there
      have hfirst := hnew (memberOf t debug bc 1 b) List.mem_cons_self
      rw [memberOf, List.length_cons] at hfirst
      exact absurd hfirst (by simp)
  · rintro ⟨hne, rfl⟩
    obtain ⟨files', hbuild, hmembers⟩ := buildAll_eq (t := t) h hne [newest] 1 hnone
    have hmember : files' library = some (.archive [memberOf t debug bc 1 newest]) := by
      have hstep := buildOnce_eq (t := t) h 1 newest hnone
      rw [if_neg hne] at hstep
      obtain ⟨files₁, hbuild₁, hlibrary⟩ := hstep
      rw [buildAll, hbuild₁, Option.bind_some, buildAll] at hbuild
      rw [← Option.some.inj hbuild, hlibrary, List.nil_append]
    refine ⟨files', _, hbuild, hmember, fun symbol code hcode => ?_, fun m hm => ?_⟩
    · have hfirst : (memberOf t debug bc 1 newest).object symbol = some code := hcode
      rw [resolveSymbol, List.findSome?_cons, hfirst]
    · rw [List.mem_singleton.1 hm, memberOf, List.length_nil]

end Builds

/-! ## A module -/

/-- Tools that carry the number of a bitcode through to its one symbol. -/
def carrying : Toolchain ℕ ℕ Unit ℕ where
  llc _ b := b
  compile _ s := fun _ => some s

/-- A module's target, in a release. -/
def gameTarget : ObjectTarget := objectTarget false "llc" "game-bc-static" "/build/game.tmp.bc"

/-- A build directory at first. -/
def noFiles : Files ℕ ℕ Unit ℕ := fun _ => none

theorem noFiles_library : noFiles "/build/game-bc-static.a" = none := rfl

/-- The scope of the directory. -/
def gameScope : Scope :=
  (Scope.empty.assign "CMAKE_CURRENT_BINARY_DIR" "/build").assign "ZILLIANS_LLC" "llc"

theorem llvmbcToX86_game : llvmbcToX86 gameScope "game-bc-static" "/build/game.tmp.bc" =
    .ok ("/build/game-bc-static.a", gameTarget) := by
  decide +kernel

theorem evaluateQuoted_game :
    gameScope.evaluateQuoted "/build/game.tmp.bc" = .ok "/build/game.tmp.bc" := by
  decide +kernel

theorem archived_game : Archived "/build" false "llc" "game-bc-static" "/build/game.tmp.bc"
    "/build/game-bc-static.a" gameTarget :=
  ⟨by decide +kernel, rfl⟩

theorem within_game_ne : within "/build" "/build/game.tmp.bc" ≠ "/build/game-bc-static.a" := by
  decide +kernel

theorem linksNewest_game :
    LinksNewest carrying "/build" false gameTarget "/build/game.tmp.bc" "/build/game-bc-static.a"
      noFiles [] 1 ∧
    ¬ LinksNewest carrying "/build" false gameTarget "/build/game.tmp.bc" "/build/game-bc-static.a"
      noFiles [1] 2 :=
  ⟨(linksNewest_iff carrying llvmbcToX86_game evaluateQuoted_game noFiles_library [] 1).2
      ⟨within_game_ne, rfl⟩,
    fun h => absurd ((linksNewest_iff carrying llvmbcToX86_game evaluateQuoted_game
      noFiles_library [1] 2).1 h).2 (by decide)⟩

/-- **The second build links the first object.** Bitcode 1 and then bitcode 2
are built, and the symbol is resolved to the code of bitcode 1. -/
theorem secondBuild_stale :
    (∃ built members, buildAll carrying "/build" gameTarget "/build/game.tmp.bc" 1
        noFiles [1, 2] = some built ∧
      membersOf (built "/build/game-bc-static.a") = some members ∧
      resolveSymbol members () = some 1) ∧
    ¬ ∀ (earlier : List ℕ) (newest : ℕ), LinksNewest carrying "/build" false gameTarget
      "/build/game.tmp.bc" "/build/game-bc-static.a" noFiles earlier newest := by
  obtain ⟨files', members, hbuild, hmembers, hresolve⟩ :=
    resolveSymbol_buildAll (t := carrying) archived_game within_game_ne noFiles_library [1, 2]
  have hfirst : resolveSymbol members () = some 1 := hresolve ()
  refine ⟨⟨files', members, hbuild, hmembers, hfirst⟩, fun h => ?_⟩
  obtain ⟨files₂, members₂, hbuild₂, hlibrary, hcode, -⟩ := h [1] 2
  obtain rfl := Option.some.inj (hbuild.symm.trans hbuild₂)
  rw [hlibrary, membersOf] at hmembers
  obtain rfl := Option.some.inj hmembers
  exact absurd (hfirst.symm.trans (hcode () 2 rfl)) (by decide)

end Zscript

end Supercell
