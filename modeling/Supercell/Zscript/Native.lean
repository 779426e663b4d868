import Supercell.CMake.CustomCommand
import Supercell.Options.Keywords
import Supercell.Zscript.AbsolutePaths

/-!
# Native code from scripts

`FindZilliansCompiler.cmake`: `ZS_2_NATIVE_CODE` makes a module of scripts and
other sources, for the CPU or for the GPU, and has `ZS2OPT_ALL` register the
rules that compile the scripts. Both read their arguments by keywords, in the
scope of the caller, so what a call finds there of an earlier one counts.
-/

namespace Supercell

namespace Zscript

open CMake CMake.Scope Hashmap Options Sections

/-! ## `ZS2OPT_ALL` -/

def optAllKeywords : List String := ["TARGET_NAME", "ZS_FILES", "ZCC_ARCH", "ZCC_OPTIONS"]

/-- The options, and the variables they are read into. -/
def optAllVariables : List (String × String) :=
  [("TARGET_NAME", "__target_name"), ("ZS_FILES", "__zs_files"), ("ZCC_ARCH", "__zcc_arch"),
    ("ZCC_OPTIONS", "__zcc_options")]

/-- The paths of the files that are made for a target. -/
def namePaths (s : Scope) : Scope :=
  let path := s.value "CMAKE_CURRENT_BINARY_DIR" ++ "/" ++ s.value "__target_name"
  let s := s.assign "_all_C" (path ++ ".zsall.c")
  let s := s.assign "_all_CU" (path ++ ".zsall.cu")
  let s := s.assign "_output_OPT_BC" (path ++ ".opt.bc")
  s.assign "_output_ALL_BC" (path ++ ".all.bc")

/-- `COMMAND ${CMAKE_COMMAND} -E remove -f ${x}`. -/
def removeCommand (s : Scope) (x : String) : List String :=
  "COMMAND" :: (s.expand "CMAKE_COMMAND" ++ ["-E", "remove", "-f"] ++ s.expand x)

/-- The rule that makes the CUDA file. -/
def allCuRule (s : Scope) : BuildRule :=
  .custom (addCustomCommand ("OUTPUT" :: s.expand "_all_CU" ++
    ("DEPENDS" :: (s.expand "_output_OPT_BC" ++ ["zillians-llc"]) ++
      (removeCommand s "_all_CU" ++ "COMMAND" ::
        (pieces (s.value "EXECUTABLE_OUTPUT_PATH" ++ "/zillians-llc") ++
          s.expand "_output_OPT_BC" ++ "-o" :: s.expand "_all_CU" ++ ["-march=cu"])))))

/-- The rule that makes the C file. -/
def allCRule (s : Scope) : BuildRule :=
  .custom (addCustomCommand ("OUTPUT" :: s.expand "_all_C" ++
    ("DEPENDS" :: s.expand "_output_OPT_BC" ++
      (removeCommand s "_all_C" ++ "COMMAND" :: (pieces (s.value "LLVM_BINDIR" ++ "/llc") ++
        s.expand "_output_OPT_BC" ++ "-o" :: s.expand "_all_C" ++ ["-march=\"c\""])))))

/-- The words of the compiler's command. -/
def zccWords (s : Scope) : List String :=
  s.expand "ZCC_BC" ++ s.expand "__zcc_options" ++ s.expand "__zs_files" ++
    "-o" :: s.expand "_output_ALL_BC"

/-- The rule that compiles the scripts. -/
def allBcRule (s : Scope) : BuildRule :=
  .custom (addCustomCommand ("OUTPUT" :: s.expand "_output_ALL_BC" ++
    ("DEPENDS" :: s.expand "__zs_files" ++ ("DEPENDS" :: s.expand "ZCC_BC" ++
      (removeCommand s "_output_ALL_BC" ++ "COMMAND" :: zccWords s)))))

/-- The rule that would optimise the bitcode. -/
def optBcRule (s : Scope) : BuildRule :=
  .custom (addCustomCommand ("OUTPUT" :: s.expand "_output_OPT_BC" ++
    ("DEPENDS" :: s.expand "_output_ALL_BC" ++
      (removeCommand s "_output_OPT_BC" ++ "COMMAND" ::
        (pieces (s.value "LLVM_BINDIR" ++ "/opt") ++ ["-disable-opt", "-f"] ++
          s.expand "_output_ALL_BC" ++ "-o" :: s.expand "_output_OPT_BC")))))

/-- `STRING(TOLOWER ${__zcc_arch} __zcc_arch_tolower)`. -/
def lowerArch (s : Scope) : Except Stop Scope :=
  s.stringToLower (s.expand "__zcc_arch" ++ ["__zcc_arch_tolower"])

/-- **`ZS2OPT_ALL`**. -/
def zs2optAll (s : Scope) (output : String) (argn : List String) :
    Except Stop (Scope × List BuildRule) := do
  let s ← parseOptions s optAllKeywords argn
  let s ← getOptions s optAllVariables
  let s ← lowerArch (namePaths s)
  let arch ← Scope.subject (s.expand "__zcc_arch_tolower")
  if s.strequal arch "gpu" then
    let rule := allCuRule s
    let s := s.listAppend output (s.expand "_all_CU")
    return (s, [rule, allBcRule s, optBcRule s])
  else if s.strequal arch "cpu" then
    let rule := allCRule s
    let s := s.listAppend output (s.expand "_all_C")
    return (s, [rule, allBcRule s, optBcRule s])
  else .error (.fatal "MACRO: ZS2OPT_ALL. Unkown zcc target. Please check it.")

/-! ## `ZS_2_NATIVE_CODE` -/

def nativeKeywords : List String :=
  ["TARGET_NAME", "TARGET_TYPE", "CPP_SRC_FILES", "ZS_SRC_FILES", "ZS_API_FILES", "ZCC_ARCH",
    "ZCC_OPTIONS"]

/-- The options, and the variables they are read into. -/
def nativeVariables : List (String × String) :=
  [("TARGET_NAME", "__target_name"), ("TARGET_TYPE", "__target_type"),
    ("CPP_SRC_FILES", "__cpp_src_files"), ("ZS_SRC_FILES", "__zs_src_files"),
    ("ZS_API_FILES", "__zs_api_files"), ("ZCC_ARCH", "__zcc_arch"),
    ("ZCC_OPTIONS", "__zcc_options")]

/-- The branch that is asked for: a flag for later, and an option. -/
def chooseArch (macroName : String) (s : Scope) : Except Stop Scope := do
  let s ← lowerArch s
  let arch ← Scope.subject (s.expand "__zcc_arch_tolower")
  if s.strequal arch "gpu" then
    return (s.assign "ZCC_ARCH_GPU" "1").listAppend "__zcc_options" ["--arch", "gpu"]
  else if s.strequal arch "cpu" then
    return (s.assign "ZCC_ARCH_CPU" "1").listAppend "__zcc_options" ["--arch", "cpu"]
  else .error (.fatal ("MACRO: " ++ macroName ++ ". Unkown zcc arch. Please check it."))

/-- A module is a shared library unless its type is given. -/
def defaultType (s : Scope) : Scope :=
  if (s "__target_type").isSome then s else s.assign "__target_type" "SHARED"

/-- The module, from its sources. A type that is not known gets a message only. -/
def moduleRules (s : Scope) (sources : List String) : Except Stop (List BuildRule) := do
  let type ← Scope.subject (s.expand "__target_type")
  if s.strequal type "EXE" then return [.executable (s.expand "__target_name") sources]
  else if s.strequal type "SHARED" then return [.shared (s.expand "__target_name") sources]
  else return []

/-- One source is dispatched by its extension. A file with another one gets a
message only. -/
def dispatchRound (s : Scope) : Except Stop Scope := do
  let s ← s.getFilenameComponent "ARG_FILE_EXT" extension (s.expand "arg")
  if s.strequal "ARG_FILE_EXT" ".cu" || s.strequal "ARG_FILE_EXT" ".zsall.cu" then
    return s.listAppend "__split_cuda_src_files" [s.value "arg"]
  else if s.strequal "ARG_FILE_EXT" ".cpp" || s.strequal "ARG_FILE_EXT" ".zsall.c" then
    return s.listAppend "__split_cpp_src_files" [s.value "arg"]
  else return s

/-- The branch for the GPU. `ENABLE_EXT_FILTER` is set right before it is asked
for, so the sources are always dispatched. -/
def gpuBranch (s : Scope) : Except Stop (Scope × List BuildRule) := do
  let s := s.assign "ENABLE_EXT_FILTER" "TRUE"
  let s := s.listAppend "__cpp_src_files" (s.expand "__zs_all_file")
  let s := s.unset "__split_cuda_src_files"
  let s := s.unset "__split_cpp_src_files"
  let s ← foreach s "arg" (s.expand "__cpp_src_files") dispatchRound
  let s ← s.set "__cuda_module_name" (pieces (s.value "__target_name" ++ "-cuda"))
  let cuda := if s.truthy "ENABLE_FEATURE_CUDA" then
      [.ptx (s.expand "__split_cuda_src_files"),
        .cudaLibrary (s.expand "__cuda_module_name") (s.expand "__split_cuda_src_files")]
    else []
  let rules ← moduleRules s (s.expand "__split_cpp_src_files")
  return (s, cuda ++ rules ++ [.link (s.expand "__target_name") (s.expand "__cuda_module_name")])

section Macro

variable (dir : String) (evalIf : Scope → List String → Except Stop Bool)

/-- `IF(${x})`. What comes of a condition of several words is left open. -/
def ifHolds (s : Scope) (x : String) : Except Stop Bool :=
  match s.expand x with
  | [] => .ok false
  | [w] => do return s.truthy (← Scope.word [w])
  | words => evalIf s words

/-- The arguments, read and made absolute. -/
def readNative (s : Scope) (argn : List String) : Except Stop Scope := do
  let s ← parseOptions s nativeKeywords argn
  let s ← getOptions s nativeVariables
  let s ← foreachMakeAbsolutePath dir evalIf s "__cpp_src_files"
  let s ← foreachMakeAbsolutePath dir evalIf s "__zs_src_files"
  let s ← foreachMakeAbsolutePath dir evalIf s "__zs_api_files"
  return s.listAppend "__zs_src_files" (s.expand "__zs_api_files")

/-- The arguments that are handed on to `ZS2OPT_ALL`. -/
def optAllArguments (s : Scope) : List String :=
  "TARGET_NAME" :: s.expand "__target_name" ++ ("ZS_FILES" :: s.expand "__zs_src_files" ++
    ("ZCC_ARCH" :: s.expand "__zcc_arch" ++ "ZCC_OPTIONS" :: s.expand "__zcc_options"))

/-- **`ZS_2_NATIVE_CODE`**. -/
def zs2NativeCode (s : Scope) (argn : List String) : Except Stop (Scope × List BuildRule) := do
  let s ← readNative dir evalIf s argn
  let s ← chooseArch "ZS_2_NATIVE_CODE" s
  let s := defaultType s
  let (s, optRules) ← zs2optAll s "__zs_all_file" (optAllArguments s)
  if ← ifHolds evalIf s "ZCC_ARCH_GPU" then
    let (s, rules) ← gpuBranch s
    return (s, optRules ++ rules)
  else if ← ifHolds evalIf s "ZCC_ARCH_CPU" then
    let rules ← moduleRules s (s.expand "__zs_all_file" ++ s.expand "__cpp_src_files")
    return (s, optRules ++ rules)
  else
    .error (.fatal ("MACRO: ZS_2_NATIVE_CODE. Unkown zcc arch (NOT CPU NOR GPU?). " ++
      "Please check it."))

end Macro

end Zscript

end Supercell
