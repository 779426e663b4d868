import Supercell.CMake.Recipes
import Supercell.Headers.Macrodef
import Supercell.Zscript.NativeCalls

/-!
# PTX that is encrypted into a header

`ZilliansPtxUtility.cmake`: `GENERATE_ENCRYPTED_PTX_HEADER` copies the PTX,
encrypts the copy by a key of the hardware and by a key from a file, and makes a
macro of it in a header. The file with the key is read, but no rule depends on
it. So the PTX of a header is always the one that is there, and the key the one
that was there when this PTX was first built.
-/

namespace Supercell

namespace Headers

open CMake CMake.Scope Builds

/-! ## The macro -/

/-- What the macro adds to a build: the rules, a target
`ADD_CUSTOM_TARGET(name ALL DEPENDS files)`, and the one that waits for it. -/
structure HeaderRules where
  commands : List CustomCommand
  custom : String × List String
  dependencies : String × String
  deriving DecidableEq, Repr

/-- The rule that encrypts. -/
def encryptRule (s : Scope) (ptx key : List String) : CustomCommand :=
  let crypto := s.expand "__location_ZILLIANS_CRYPTO_TOOL"
  let encrypted := s.expand "_ptx_file_encrypt"
  addCustomCommand ("DEPENDS" :: ptx ++ ("OUTPUT" :: encrypted ++
    ("COMMAND" :: (s.expand "CMAKE_COMMAND" ++ ["-E", "copy"] ++ ptx ++
      s.expand "_ptx_file_bak") ++
    ("COMMAND" :: (s.expand "CMAKE_COMMAND" ++ ["-E", "copy"] ++ ptx ++ encrypted) ++
    ("COMMAND" :: (crypto ++ encrypted ++ ["--enc", "--hardware-key"]) ++
    ("COMMAND" :: (crypto ++ encrypted ++ ["--enc", "--key-file"] ++ key ++
      ["--base64"])))))))

/-- The rule that makes the header. -/
def headerRule (s : Scope) (header : String) (macroName : List String) : CustomCommand :=
  addCustomCommand ("DEPENDS" :: s.expand "_ptx_file_encrypt" ++ ("OUTPUT" :: s.expand header ++
    ("COMMAND" :: (pieces (s.value "ZILLIANS_SCRIPT_PATH" ++ "/generate_macrodef_header.sh") ++
      s.expand "_ptx_file_encrypt" ++ s.expand header ++ macroName))))

/-- **`GENERATE_ENCRYPTED_PTX_HEADER`**. -/
def generateEncryptedPtxHeader (s : Scope) (target header stem ptx key macroName : String) :
    Except Stop (Scope × HeaderRules) := do
  let target ← s.evaluateQuoted target
  let header ← s.evaluateQuoted header
  let s ← s.set "_ptx_file_bak" (← s.evaluate (stem ++ ".bak"))
  let s ← s.set "_ptx_file_encrypt" (← s.evaluate (stem ++ ".encrypt"))
  let s ← s.set header (← s.evaluate (stem ++ ".encrypt.h"))
  let encrypted := encryptRule s (← s.evaluate ptx) (← s.evaluate key)
  let made := headerRule s header (← s.evaluate macroName)
  return (s, ⟨[encrypted, made], (target ++ "_depends", s.expand header),
    (target, target ++ "_depends")⟩)

/-! ## What it registers -/

/-- **A call for a header**: plain words, none of which has a meaning of its
own, and different files. -/
structure PtxCall (s : Scope) (target header stem ptx key macroName : String) : Prop where
  names : inert target.toList = true ∧ inert header.toList = true
  programs : ∀ w ∈ [s.value "CMAKE_COMMAND", s.value "__location_ZILLIANS_CRYPTO_TOOL"],
    Word w ∧ w ∉ customKeywords
  words : ∀ w ∈ [ptx, key, macroName], Plain w ∧ w ∉ customKeywords
  stem : Zscript.literal stem = true
  scripts : Zscript.literal (s.value "ZILLIANS_SCRIPT_PATH") = true
  header : header ∉ ["CMAKE_COMMAND", "__location_ZILLIANS_CRYPTO_TOOL", "ZILLIANS_SCRIPT_PATH",
    "_ptx_file_bak", "_ptx_file_encrypt"]

/-- The script that makes the header. -/
def headerScript (s : Scope) : String :=
  s.value "ZILLIANS_SCRIPT_PATH" ++ "/generate_macrodef_header.sh"

def encryptCommand (s : Scope) (stem ptx key : String) : CustomCommand :=
  let crypto := s.value "__location_ZILLIANS_CRYPTO_TOOL"
  ⟨[stem ++ ".encrypt"], [ptx], [[s.value "CMAKE_COMMAND", "-E", "copy", ptx, stem ++ ".bak"],
    [s.value "CMAKE_COMMAND", "-E", "copy", ptx, stem ++ ".encrypt"],
    [crypto, stem ++ ".encrypt", "--enc", "--hardware-key"],
    [crypto, stem ++ ".encrypt", "--enc", "--key-file", key, "--base64"]]⟩

def headerCommand (s : Scope) (stem macroName : String) : CustomCommand :=
  ⟨[stem ++ ".encrypt.h"], [stem ++ ".encrypt"],
    [[headerScript s, stem ++ ".encrypt", stem ++ ".encrypt.h", macroName]]⟩

variable {s : Scope} {target header stem ptx key macroName : String}

/-- A file named after the stem is a plain word, and no keyword. -/
theorem plain_ofStem {ext : String} (hstem : Zscript.literal stem = true)
    (hext : Zscript.literal ext = true) (hdot : '.' ∈ ext.toList) :
    Plain (stem ++ ext) ∧ stem ++ ext ∉ customKeywords := by
  refine ⟨Zscript.plain_of_literal (fun hempty => ?_) ?_, fun hmem => ?_⟩
  · rw [(String.append_eq_empty_iff.1 hempty).2] at hdot
    exact absurd hdot (by decide)
  · rw [Zscript.literal_append, hstem, hext]
    rfl
  · have hnone : ∀ k ∈ customKeywords, '.' ∉ k.toList := by decide
    refine hnone _ hmem ?_
    rw [String.toList_append]
    exact List.mem_append_right _ hdot

theorem ne_parentScope {ext : String} (hdot : '.' ∈ ext.toList) :
    stem ++ ext ≠ "PARENT_SCOPE" := by
  intro heq
  have hmem : '.' ∈ (stem ++ ext).toList := by
    rw [String.toList_append]
    exact List.mem_append_right _ hdot
  rw [heq] at hmem
  exact absurd hmem (by decide)

/-- **What the macro registers.** -/
theorem generateEncryptedPtxHeader_returns (h : PtxCall s target header stem ptx key macroName) :
    Returns (generateEncryptedPtxHeader s target header stem ptx key macroName) fun r =>
      r.2 = ⟨[encryptCommand s stem ptx key, headerCommand s stem macroName],
        (target ++ "_depends", [stem ++ ".encrypt.h"]), (target, target ++ "_depends")⟩ := by
  obtain ⟨hbak, hbakKeyword⟩ := @plain_ofStem stem ".bak" h.stem (by decide) (by decide)
  obtain ⟨henc, hencKeyword⟩ := @plain_ofStem stem ".encrypt" h.stem (by decide) (by decide)
  obtain ⟨hhdr, hhdrKeyword⟩ := @plain_ofStem stem ".encrypt.h" h.stem (by decide) (by decide)
  have hprograms := h.programs
  have hwords := h.words
  simp only [List.forall_mem_cons] at hprograms hwords
  obtain ⟨hcmake, hcrypto, -⟩ := hprograms
  obtain ⟨hptx, hkey, hname, -⟩ := hwords
  have hheader := h.header
  simp only [List.mem_cons, List.not_mem_nil, or_false, not_or] at hheader
  let t := ((s.assign "_ptx_file_bak" (stem ++ ".bak")).assign "_ptx_file_encrypt"
    (stem ++ ".encrypt")).assign header (stem ++ ".encrypt.h")
  have hexpandBak : t.expand "_ptx_file_bak" = [stem ++ ".bak"] :=
    expand_of_value_eq (by
      rw [value_assign_of_ne _ (Ne.symm hheader.2.2.2.1), value_assign_of_ne _ (by decide),
        value_assign_self]) hbak.toWord
  have hexpandEnc : t.expand "_ptx_file_encrypt" = [stem ++ ".encrypt"] :=
    expand_of_value_eq (by
      rw [value_assign_of_ne _ (Ne.symm hheader.2.2.2.2), value_assign_self]) henc.toWord
  have hexpandHdr : t.expand header = [stem ++ ".encrypt.h"] :=
    expand_of_value_eq (value_assign_self _ _ _) hhdr.toWord
  have hkeep : ∀ x, x ≠ header → x ≠ "_ptx_file_bak" → x ≠ "_ptx_file_encrypt" →
      t.value x = s.value x := by
    intro x hx hx' hx''
    rw [value_assign_of_ne _ hx, value_assign_of_ne _ hx'', value_assign_of_ne _ hx']
  have hexpandCmake : t.expand "CMAKE_COMMAND" = [s.value "CMAKE_COMMAND"] :=
    expand_of_value_eq (hkeep _ (Ne.symm hheader.1) (by decide) (by decide)) hcmake.1
  have hexpandCrypto : t.expand "__location_ZILLIANS_CRYPTO_TOOL" =
      [s.value "__location_ZILLIANS_CRYPTO_TOOL"] :=
    expand_of_value_eq (hkeep _ (Ne.symm hheader.2.1) (by decide) (by decide)) hcrypto.1
  have hscript : t.value "ZILLIANS_SCRIPT_PATH" = s.value "ZILLIANS_SCRIPT_PATH" :=
    hkeep _ (Ne.symm hheader.2.2.1) (by decide) (by decide)
  have hscriptWord : Word (headerScript s) ∧ headerScript s ∉ customKeywords := by
    refine ⟨(Zscript.plain_of_literal (fun hempty => ?_) ?_).toWord, notMem_customKeywords (.inl ?_)⟩
    · exact absurd (String.append_eq_empty_iff.1 hempty).2 (by decide)
    · rw [headerScript, Zscript.literal_append, h.scripts]
      decide
    · rw [headerScript, String.toList_append]
      exact List.mem_append_right _ (by decide)
  have hone : ∀ {w : String}, w ∉ customKeywords → ∀ x ∈ [w], x ∉ customKeywords :=
    fun hw x hx => List.mem_singleton.1 hx ▸ hw
  have hencrypt : encryptRule t [ptx] [key] = encryptCommand s stem ptx key := by
    have hcopy : ∀ {o : String}, o ∉ customKeywords →
        ∀ x ∈ [s.value "CMAKE_COMMAND", "-E", "copy", ptx, o], x ∉ customKeywords := by
      intro o ho
      simp only [List.forall_mem_cons]
      exact ⟨hcmake.2, by decide, by decide, hptx.2, ho, List.forall_mem_nil _⟩
    have hhardware : ∀ x ∈ [s.value "__location_ZILLIANS_CRYPTO_TOOL", stem ++ ".encrypt", "--enc",
        "--hardware-key"], x ∉ customKeywords := by
      simp only [List.forall_mem_cons]
      exact ⟨hcrypto.2, hencKeyword, by decide, by decide, List.forall_mem_nil _⟩
    have hkeyFile : ∀ x ∈ [s.value "__location_ZILLIANS_CRYPTO_TOOL", stem ++ ".encrypt", "--enc",
        "--key-file", key, "--base64"], x ∉ customKeywords := by
      simp only [List.forall_mem_cons]
      exact ⟨hcrypto.2, hencKeyword, by decide, by decide, hkey.2, by decide,
        List.forall_mem_nil _⟩
    unfold encryptRule
    dsimp only
    rw [hexpandCmake, hexpandCrypto, hexpandEnc, hexpandBak, addCustomCommand,
      readCustomCommand_depends (hone hptx.2),
      readCustomCommand_output (hone hencKeyword)]
    change readCustomCommand "OUTPUT" ⟨[] ++ [stem ++ ".encrypt"], [] ++ [ptx], []⟩
      ("COMMAND" :: [s.value "CMAKE_COMMAND", "-E", "copy", ptx, stem ++ ".bak"] ++
        ("COMMAND" :: [s.value "CMAKE_COMMAND", "-E", "copy", ptx, stem ++ ".encrypt"] ++
          ("COMMAND" :: [s.value "__location_ZILLIANS_CRYPTO_TOOL", stem ++ ".encrypt", "--enc",
              "--hardware-key"] ++
            ("COMMAND" :: [s.value "__location_ZILLIANS_CRYPTO_TOOL", stem ++ ".encrypt", "--enc",
              "--key-file", key, "--base64"] ++ [])))) = _
    rw [readCustomCommand_command (hcopy hbakKeyword), readCustomCommand_command (hcopy hencKeyword),
      readCustomCommand_command hhardware, readCustomCommand_command hkeyFile, readCustomCommand]
    rfl
  have hheaderRule : headerRule t header [macroName] = headerCommand s stem macroName := by
    have hline : ∀ x ∈ [headerScript s, stem ++ ".encrypt", stem ++ ".encrypt.h", macroName],
        x ∉ customKeywords := by
      simp only [List.forall_mem_cons]
      exact ⟨hscriptWord.2, hencKeyword, hhdrKeyword, hname.2, List.forall_mem_nil _⟩
    unfold headerRule
    rw [hexpandEnc, hexpandHdr, hscript, show s.value "ZILLIANS_SCRIPT_PATH" ++
      "/generate_macrodef_header.sh" = headerScript s from rfl, pieces_word hscriptWord.1,
      addCustomCommand, readCustomCommand_depends (hone hencKeyword),
      readCustomCommand_output (hone hhdrKeyword)]
    change readCustomCommand "OUTPUT" ⟨[] ++ [stem ++ ".encrypt.h"], [] ++ [stem ++ ".encrypt"], []⟩
      ("COMMAND" :: [headerScript s, stem ++ ".encrypt", stem ++ ".encrypt.h", macroName] ++ []) = _
    rw [readCustomCommand_command hline, readCustomCommand]
    rfl
  unfold generateEncryptedPtxHeader
  simp only [(s.evaluate_inert h.names.1).2, (s.evaluate_inert h.names.2).2, evaluate_plain _ hbak,
    evaluate_plain _ henc, evaluate_plain _ hhdr, evaluate_plain _ hptx.1, evaluate_plain _ hkey.1,
    evaluate_plain _ hname.1, set_word _ _ (@ne_parentScope stem ".bak" (by decide)),
    set_word _ _ (@ne_parentScope stem ".encrypt" (by decide)),
    set_word _ _ (@ne_parentScope stem ".encrypt.h" (by decide)), ok_bind]
  refine Returns.ok ?_
  dsimp only
  rw [show ((s.assign "_ptx_file_bak" (stem ++ ".bak")).assign "_ptx_file_encrypt"
    (stem ++ ".encrypt")).assign header (stem ++ ".encrypt.h") = t from rfl, hencrypt, hheaderRule,
    hexpandHdr]

/-! ## What a build makes of it -/

/-- **The PTX and its key**, as they stand, and the key that this PTX is
encrypted by once it has been built. -/
structure Sealed where
  ptx : String
  key : String
  used : Option String
  deriving DecidableEq, Repr

/-- What happens to the files, as far as the header can show it. -/
def Sealed.step (ptx key : String) (a : Sealed) : Event String String → Sealed
  | .edit f content =>
    if f = ptx then { a with ptx := content, used := none }
    else if f = key then { a with key := content }
    else a
  | .build => { a with used := some (a.used.getD a.key) }

def Sealed.run (ptx key : String) (a : Sealed) (events : List (Event String String)) : Sealed :=
  events.foldl (Sealed.step ptx key) a

/-- **What the programs do**: the crypto tool encrypts a file in its place, by
the key of the hardware or by one from a file, and then in an alphabet without
backslashes and tildes; the script makes its header. -/
structure PtxPrograms (p : Programs String) (s : Scope) (hardware : String → String)
    (encrypt : String → String → String) : Prop where
  cmake : s.value "CMAKE_COMMAND" = p.cmake
  other : s.value "__location_ZILLIANS_CRYPTO_TOOL" ≠ p.cmake ∧ headerScript s ≠ p.cmake
  crypto : ∀ f rest, p.target (s.value "__location_ZILLIANS_CRYPTO_TOOL" :: f :: "--enc" :: rest) =
    some f
  byHardware : ∀ f d x, d f = some x →
    p.output [s.value "__location_ZILLIANS_CRYPTO_TOOL", f, "--enc", "--hardware-key"] d = hardware x
  byKey : ∀ f k d x y, d f = some x → d k = some y →
    p.output [s.value "__location_ZILLIANS_CRYPTO_TOOL", f, "--enc", "--key-file", k, "--base64"] d =
      encrypt y x
  base64 : ∀ y x, '\\' ∉ (encrypt y x).toList ∧ '~' ∉ (encrypt y x).toList
  script : ∀ i o macroName, p.target [headerScript s, i, o, macroName] = some o
  header : ∀ i o macroName d x, d i = some x →
    p.output [headerScript s, i, o, macroName] d = generateMacrodefHeader macroName x

/-- The files of a call are different ones, and no targets. -/
structure PtxFiles (p : Programs String) (stem ptx key : String) : Prop where
  ptx_apart : ptx ∉ [stem ++ ".encrypt", stem ++ ".bak", stem ++ ".encrypt.h", key]
  key_apart : key ∉ [stem ++ ".encrypt", stem ++ ".bak", stem ++ ".encrypt.h"]
  file : p.file ptx = ptx ∧ p.file (stem ++ ".encrypt") = stem ++ ".encrypt"

/-- The header for a PTX under a key. -/
def sealedHeader (macroName : String) (hardware : String → String)
    (encrypt : String → String → String) (y x : String) : String :=
  generateMacrodefHeader macroName (encrypt y (hardware x))

/-- **How the tree stands to the PTX and its key** between the events of a
history. -/
structure Follows (stem ptx key macroName : String) (hardware : String → String)
    (encrypt : String → String → String) (t : Tree String String) (a : Sealed) : Prop where
  past : ∀ f, t.time f < t.clock
  ptx_there : t.disk ptx = some a.ptx
  key_there : t.disk key = some a.key
  /-- What has been built is still fresh. -/
  built : ∀ y, a.used = some y → t.disk (stem ++ ".encrypt") = some (encrypt y (hardware a.ptx)) ∧
    t.disk (stem ++ ".encrypt.h") = some (sealedHeader macroName hardware encrypt y a.ptx) ∧
    t.time ptx ≤ t.time (stem ++ ".encrypt") ∧
    t.time (stem ++ ".encrypt") ≤ t.time (stem ++ ".encrypt.h")
  /-- What has not is missing, or older than the PTX. -/
  pending : a.used = none → t.disk (stem ++ ".encrypt") = none ∨
    t.time (stem ++ ".encrypt") < t.time ptx

variable {p : Programs String} {hardware : String → String} {encrypt : String → String → String}
  {t t' : Tree String String} {a : Sealed}

/-- The three files that are made have different names. -/
theorem stem_ne (stem : String) : stem ++ ".encrypt" ≠ stem ++ ".bak" ∧
    stem ++ ".encrypt.h" ≠ stem ++ ".bak" ∧ stem ++ ".encrypt.h" ≠ stem ++ ".encrypt" := by
  simp only [ne_eq, String.append_right_inj]
  decide

/-- **What the encrypting rule leaves**: the PTX encrypted twice, and a copy of it
as it is. -/
theorem encryptCommand_result (hp : PtxPrograms p s hardware encrypt) (hf : PtxFiles p stem ptx key)
    {d : Contents String String} {x y : String} (hptx : d ptx = some x) (hkey : d key = some y) :
    (encryptCommand s stem ptx key).result p d = fun f =>
      if f = stem ++ ".encrypt" then some (encrypt y (hardware x))
      else if f = stem ++ ".bak" then some x else d f := by
  obtain ⟨hencbak, -, -⟩ := stem_ne stem
  have hptxNe := hf.ptx_apart
  have hkeyNe := hf.key_apart
  simp only [List.mem_cons, List.not_mem_nil, or_false, not_or] at hptxNe hkeyNe
  have hcopy : ∀ d' source o, p.run d' [s.value "CMAKE_COMMAND", "-E", "copy", source, o] =
      fun f => if f = o then d' source else d' f := by
    intro d' source o
    rw [hp.cmake, run_copy]
  have hcalls : ∀ rest, p.Calls (s.value "__location_ZILLIANS_CRYPTO_TOOL" :: (stem ++ ".encrypt") ::
      "--enc" :: rest) (stem ++ ".encrypt") := by
    intro rest
    refine ⟨fun w hw => ?_, hp.crypto _ _⟩
    obtain rfl := Option.some.inj hw
    exact hp.other.1
  unfold CustomCommand.result encryptCommand
  dsimp only
  rw [List.foldl_cons, List.foldl_cons, List.foldl_cons, List.foldl_cons, List.foldl_nil, hcopy,
    hcopy, run_calls (hcalls _), run_calls (hcalls _)]
  -- the copy, then the two ciphers in its place
  have hcopied : (fun f => if f = stem ++ ".encrypt" then
      (fun f => if f = stem ++ ".bak" then d ptx else d f) ptx
      else (fun f => if f = stem ++ ".bak" then d ptx else d f) f) (stem ++ ".encrypt") =
        some x := by
    dsimp only
    rw [if_pos rfl, if_neg hptxNe.2.1, hptx]
  rw [hp.byHardware _ _ x hcopied, hp.byKey _ _ _ (hardware x) y (if_pos rfl)
    (by dsimp only; rw [if_neg hkeyNe.1, if_neg hkeyNe.1, if_neg hkeyNe.2.1, hkey])]
  funext f
  by_cases henc : f = stem ++ ".encrypt"
  · rw [if_pos henc, if_pos henc]
  · dsimp only
    rw [if_neg henc, if_neg henc, if_neg henc, if_neg henc]
    by_cases hbak : f = stem ++ ".bak"
    · rw [if_pos hbak, if_pos hbak, hptx]
    · rw [if_neg hbak, if_neg hbak]

/-- **What the other rule leaves**: the header of what has been encrypted. -/
theorem headerCommand_result (hp : PtxPrograms p s hardware encrypt) {d : Contents String String}
    {x : String} (henc : d (stem ++ ".encrypt") = some x) :
    (headerCommand s stem macroName).result p d = fun f =>
      if f = stem ++ ".encrypt.h" then some (generateMacrodefHeader macroName x) else d f := by
  have hcalls : p.Calls [headerScript s, stem ++ ".encrypt", stem ++ ".encrypt.h", macroName]
      (stem ++ ".encrypt.h") := by
    refine ⟨fun w hw => ?_, hp.script _ _ _⟩
    obtain rfl := Option.some.inj hw
    exact hp.other.2
  unfold CustomCommand.result headerCommand
  dsimp only
  rw [List.foldl_cons, List.foldl_nil, run_calls hcalls, hp.header _ _ _ _ x henc]

/-- The files that the encrypting rule writes. -/
theorem mem_written_encryptCommand (hp : PtxPrograms p s hardware encrypt) {f : String} :
    f ∈ ((encryptCommand s stem ptx key).toRule p).written ↔
      f = stem ++ ".encrypt" ∨ f = stem ++ ".bak" := by
  have hcopy : ∀ source o, p.writes [s.value "CMAKE_COMMAND", "-E", "copy", source, o] = [o] := by
    intro source o
    rw [Programs.writes, hp.cmake, show p.line [p.cmake, "-E", "copy", source, o] =
      .copy source o from if_pos rfl]
  have hcrypto : ∀ rest, p.writes (s.value "__location_ZILLIANS_CRYPTO_TOOL" ::
      (stem ++ ".encrypt") :: "--enc" :: rest) = [stem ++ ".encrypt"] := by
    intro rest
    rw [Programs.writes, line_of_head fun w hw => Option.some.inj hw ▸ hp.other.1]
    dsimp only
    rw [hp.crypto]
    rfl
  rw [mem_written, encryptCommand]
  simp only [List.flatMap_cons, List.flatMap_nil, hcopy, hcrypto, List.mem_append, List.mem_cons,
    List.not_mem_nil, or_false]
  constructor
  · rintro (h | h | h | h | h)
    · exact .inl h
    · exact .inr h
    · exact .inl h
    · exact .inl h
    · exact .inl h
  · rintro (h | h)
    · exact .inl h
    · exact .inr (.inl h)

theorem mem_written_headerCommand (hp : PtxPrograms p s hardware encrypt) {f : String} :
    f ∈ ((headerCommand s stem macroName).toRule p).written ↔ f = stem ++ ".encrypt.h" := by
  have hscript : p.writes [headerScript s, stem ++ ".encrypt", stem ++ ".encrypt.h", macroName] =
      [stem ++ ".encrypt.h"] := by
    rw [Programs.writes, line_of_head fun w hw => Option.some.inj hw ▸ hp.other.2]
    dsimp only
    rw [hp.script]
    rfl
  rw [mem_written, headerCommand]
  simp only [List.flatMap_cons, List.flatMap_nil, hscript, List.mem_append, List.mem_cons,
    List.not_mem_nil, or_false, or_self]

/-- The rules of a call, in their order. -/
def ptxRules (p : Programs String) (s : Scope) (stem ptx key macroName : String) :
    List (Rule String String) :=
  [(encryptCommand s stem ptx key).toRule p, (headerCommand s stem macroName).toRule p]

/-- **An edit** of any file that is not made. -/
theorem Follows.edit (h : Follows stem ptx key macroName hardware encrypt t a)
    (hf : PtxFiles p stem ptx key) {f : String}
    (hedit : f ∉ [stem ++ ".encrypt", stem ++ ".bak", stem ++ ".encrypt.h"]) (content : String) :
    Follows stem ptx key macroName hardware encrypt (t.write [f] fun _ => content)
      (a.step ptx key (.edit f content)) := by
  have hptx := hf.ptx_apart
  simp only [List.mem_cons, List.not_mem_nil, or_false, not_or] at hptx hedit
  have henc : stem ++ ".encrypt" ∉ [f] := fun hmem => hedit.1 (List.mem_singleton.1 hmem).symm
  have hhdr : stem ++ ".encrypt.h" ∉ [f] :=
    fun hmem => hedit.2.2 (List.mem_singleton.1 hmem).symm
  have hpast := write_past h.past [f] fun _ => content
  unfold Sealed.step
  dsimp only
  split
  · -- the PTX itself: it is newer than what was made of it
    rename_i hfptx
    subst hfptx
    have hkey : key ∉ [f] := fun hmem => hptx.2.2.2 (List.mem_singleton.1 hmem).symm
    refine ⟨hpast, ?_, ?_, fun y hy => absurd hy.symm (Option.some_ne_none y), fun _ => .inr ?_⟩
    · simp [Tree.write]
    · simp only [Tree.write, if_neg hkey]
      exact h.key_there
    · simp only [Tree.write, if_neg henc, if_pos (List.mem_singleton_self f)]
      exact h.past _
  · rename_i hfptx
    have hptxf : ptx ∉ [f] := fun hmem => hfptx (List.mem_singleton.1 hmem).symm
    -- no rule looks at the time of any other file
    have hbuilt : ∀ y, a.used = some y →
        (t.write [f] fun _ => content).disk (stem ++ ".encrypt") =
            some (encrypt y (hardware a.ptx)) ∧
          (t.write [f] fun _ => content).disk (stem ++ ".encrypt.h") =
            some (sealedHeader macroName hardware encrypt y a.ptx) ∧
          (t.write [f] fun _ => content).time ptx ≤
            (t.write [f] fun _ => content).time (stem ++ ".encrypt") ∧
          (t.write [f] fun _ => content).time (stem ++ ".encrypt") ≤
            (t.write [f] fun _ => content).time (stem ++ ".encrypt.h") := by
      intro y hy
      simp only [Tree.write, if_neg henc, if_neg hhdr, if_neg hptxf]
      exact h.built y hy
    have hpending : a.used = none →
        (t.write [f] fun _ => content).disk (stem ++ ".encrypt") = none ∨
          (t.write [f] fun _ => content).time (stem ++ ".encrypt") <
            (t.write [f] fun _ => content).time ptx := by
      intro hnone
      simp only [Tree.write, if_neg henc, if_neg hptxf]
      exact h.pending hnone
    have hptxThere : (t.write [f] fun _ => content).disk ptx = some a.ptx := by
      simp only [Tree.write, if_neg hptxf]
      exact h.ptx_there
    split
    · rename_i hfkey
      refine ⟨hpast, hptxThere, ?_, hbuilt, hpending⟩
      subst hfkey
      simp [Tree.write]
    · rename_i hfkey
      have hkeyf : key ∉ [f] := fun hmem => hfkey (List.mem_singleton.1 hmem).symm
      refine ⟨hpast, hptxThere, ?_, hbuilt, hpending⟩
      simp only [Tree.write, if_neg hkeyf]
      exact h.key_there

/-- **A build** leaves what is fresh, or encrypts the PTX by the key that is
there. -/
theorem Follows.build (h : Follows stem ptx key macroName hardware encrypt t a)
    (hp : PtxPrograms p s hardware encrypt) (hf : PtxFiles p stem ptx key) :
    ∃ t', build (ptxRules p s stem ptx key macroName) t = some t' ∧
      Follows stem ptx key macroName hardware encrypt t' (a.step ptx key .build) := by
  obtain ⟨hencbak, hhdrbak, hhdrenc⟩ := stem_ne stem
  have hptx := hf.ptx_apart
  have hkey := hf.key_apart
  simp only [List.mem_cons, List.not_mem_nil, or_false, not_or] at hptx hkey
  let r := (encryptCommand s stem ptx key).toRule p
  let r' := (headerCommand s stem macroName).toRule p
  have hin : r.inputs = [ptx] := by
    change [p.file ptx] = [ptx]
    rw [hf.file.1]
  have hin' : r'.inputs = [stem ++ ".encrypt"] := by
    change [p.file (stem ++ ".encrypt")] = [stem ++ ".encrypt"]
    rw [hf.file.2]
  have hmake : ∀ {r : Rule String String} {i o : String} (t : Tree String String), r.inputs = [i] →
      r.outputs = [o] → (t.disk i).isSome = true →
        r.make t = some (if t.disk o ≠ none ∧ t.time i ≤ t.time o then t else r.run t) := by
    intro r i o t hinputs houtputs hsome
    unfold Rule.make Rule.Fresh
    simp only [hinputs, houtputs, List.mem_singleton, forall_eq, hsome, if_true]
  have hready : (t.disk ptx).isSome = true := by rw [h.ptx_there, Option.isSome_some]
  cases hused : a.used with
  | some y =>
    -- nothing is older than what it is made of
    obtain ⟨henc, hhdr, hold, hold'⟩ := h.built y hused
    have hready' : (t.disk (stem ++ ".encrypt")).isSome = true := by rw [henc, Option.isSome_some]
    have hfirst : r.make t = some t := by
      rw [hmake t hin rfl hready, if_pos ⟨henc ▸ Option.some_ne_none _, hold⟩]
    have hsecond : r'.make t = some t := by
      rw [hmake t hin' rfl hready', if_pos ⟨hhdr ▸ Option.some_ne_none _, hold'⟩]
    refine ⟨t, ?_, ?_⟩
    · rw [Builds.build, ptxRules, List.foldlM_cons, show ((encryptCommand s stem ptx key).toRule p) = r
        from rfl, hfirst]
      change (r'.make t).bind _ = _
      rw [hsecond]
      rfl
    · have hsame : a.step ptx key .build = a := by
        rw [Sealed.step, hused, Option.getD_some, ← hused]
      rw [hsame]
      exact h
  | none =>
    have hstale : ¬ (t.disk (stem ++ ".encrypt") ≠ none ∧
        t.time ptx ≤ t.time (stem ++ ".encrypt")) := by
      rintro ⟨hthere, hle⟩
      exact (h.pending hused).elim hthere (Nat.not_lt.2 hle)
    have hwritten : ∀ {f : String}, f ∈ r.written ↔ f = stem ++ ".encrypt" ∨ f = stem ++ ".bak" :=
      mem_written_encryptCommand hp
    have hwritten' : ∀ {f : String}, f ∈ r'.written ↔ f = stem ++ ".encrypt.h" :=
      mem_written_headerCommand hp
    -- the PTX is encrypted
    let u := r.run t
    have hu : u.disk = fun f => if f = stem ++ ".encrypt" then some (encrypt a.key (hardware a.ptx))
        else if f = stem ++ ".bak" then some a.ptx else t.disk f := by
      rw [← encryptCommand_result hp hf h.ptx_there h.key_there]
      refine run_toRule fun f hmem => ?_
      rw [encryptCommand_result hp hf h.ptx_there h.key_there]
      dsimp only
      rcases hwritten.1 hmem with rfl | rfl
      · rw [if_pos rfl]
        exact Option.some_ne_none _
      · rw [if_neg (Ne.symm hencbak), if_pos rfl]
        exact Option.some_ne_none _
    have hutime : ∀ f, u.time f = if f = stem ++ ".encrypt" ∨ f = stem ++ ".bak" then t.clock
        else t.time f := by
      intro f
      change (if f ∈ r.written then t.clock else t.time f) = _
      simp only [hwritten]
    have hupast : ∀ f, u.time f < u.clock := write_past h.past r.written (r.recipe t.disk)
    have henc : u.disk (stem ++ ".encrypt") = some (encrypt a.key (hardware a.ptx)) := by
      rw [hu]
      exact if_pos rfl
    -- so the header is older, and made again
    have hheaderStale : ¬ (u.disk (stem ++ ".encrypt.h") ≠ none ∧
        u.time (stem ++ ".encrypt") ≤ u.time (stem ++ ".encrypt.h")) := by
      rintro ⟨-, hle⟩
      rw [hutime, hutime, if_pos (.inl rfl), if_neg (not_or.2 ⟨hhdrenc, hhdrbak⟩)] at hle
      exact absurd (h.past _) (Nat.not_lt.2 hle)
    let v := r'.run u
    have hv : v.disk = fun f => if f = stem ++ ".encrypt.h" then
        some (sealedHeader macroName hardware encrypt a.key a.ptx) else u.disk f := by
      rw [sealedHeader, ← headerCommand_result hp henc]
      refine run_toRule fun f hmem => ?_
      rw [headerCommand_result hp henc]
      obtain rfl := hwritten'.1 hmem
      dsimp only
      rw [if_pos rfl]
      exact Option.some_ne_none _
    have hvtime : ∀ f, v.time f = if f = stem ++ ".encrypt.h" then u.clock else u.time f := by
      intro f
      change (if f ∈ r'.written then u.clock else u.time f) = _
      simp only [hwritten']
    have hready' : (u.disk (stem ++ ".encrypt")).isSome = true := by rw [henc, Option.isSome_some]
    have hfirst : r.make t = some u := by rw [hmake t hin rfl hready, if_neg hstale]
    have hsecond : r'.make u = some v := by rw [hmake u hin' rfl hready', if_neg hheaderStale]
    refine ⟨v, ?_, ?_⟩
    · rw [Builds.build, ptxRules, List.foldlM_cons, show ((encryptCommand s stem ptx key).toRule p) = r
        from rfl, hfirst]
      change (r'.make u).bind _ = _
      rw [hsecond]
      rfl
    · have hstep : a.step ptx key .build = { a with used := some a.key } := by
        rw [Sealed.step, hused, Option.getD_none]
      rw [hstep]
      refine ⟨write_past hupast r'.written (r'.recipe u.disk), ?_, ?_, fun y hy => ?_,
        fun hnone => absurd hnone (Option.some_ne_none _)⟩
      · rw [hv, hu]
        dsimp only
        rw [if_neg hptx.2.2.1, if_neg hptx.1, if_neg hptx.2.1, h.ptx_there]
      · rw [hv, hu]
        dsimp only
        rw [if_neg hkey.2.2, if_neg hkey.1, if_neg hkey.2.1, h.key_there]
      · obtain rfl := Option.some.inj hy
        refine ⟨?_, ?_, ?_, ?_⟩
        · rw [hv]
          dsimp only
          rw [if_neg (Ne.symm hhdrenc), henc]
        · rw [hv]
          exact if_pos rfl
        · rw [hvtime, hvtime, if_neg hptx.2.2.1, if_neg (Ne.symm hhdrenc), hutime, hutime,
            if_neg (not_or.2 ⟨hptx.1, hptx.2.1⟩), if_pos (.inl rfl)]
          exact Nat.le_of_lt (h.past _)
        · rw [hvtime, hvtime, if_neg (Ne.symm hhdrenc), if_pos rfl]
          exact Nat.le_of_lt (hupast _)

/-- No edit of what is made. -/
def EditsSources (stem : String) (events : List (Event String String)) : Prop :=
  ∀ f content, .edit f content ∈ events →
    f ∉ [stem ++ ".encrypt", stem ++ ".bak", stem ++ ".encrypt.h"]

/-- **A history**, event by event. -/
theorem Follows.history {events : List (Event String String)}
    (h : Follows stem ptx key macroName hardware encrypt t a)
    (hp : PtxPrograms p s hardware encrypt) (hf : PtxFiles p stem ptx key)
    (hevents : EditsSources stem events) :
    ∃ t', history (ptxRules p s stem ptx key macroName) t events = some t' ∧
      Follows stem ptx key macroName hardware encrypt t' (a.run ptx key events) := by
  induction events generalizing t a with
  | nil => exact ⟨t, rfl, h⟩
  | cons e events ih =>
    have hrest : EditsSources stem events := fun f content he =>
      hevents f content (List.mem_cons_of_mem _ he)
    obtain ⟨u, hu, hfollows⟩ : ∃ u, Builds.step (ptxRules p s stem ptx key macroName) t e = some u ∧
        Follows stem ptx key macroName hardware encrypt u (a.step ptx key e) := by
      cases e with
      | edit f content =>
        exact ⟨_, rfl, h.edit hf (hevents f content List.mem_cons_self) content⟩
      | build => exact h.build hp hf
    obtain ⟨t', ht', hlast⟩ := ih hfollows hrest
    refine ⟨t', ?_, hlast⟩
    rw [Builds.history, List.foldlM_cons, hu]
    exact ht'

/-- The key of a PTX that has been built stays, whatever comes of the file with
the key. -/
theorem Sealed.run_used {events : List (Event String String)} {y : String} (hused : a.used = some y)
    (hevents : ∀ content, .edit ptx content ∉ events) :
    (a.run ptx key events).used = some y ∧ (a.run ptx key events).ptx = a.ptx := by
  induction events generalizing a with
  | nil => exact ⟨hused, rfl⟩
  | cons e events ih =>
    have hstep : (a.step ptx key e).used = some y ∧ (a.step ptx key e).ptx = a.ptx := by
      cases e with
      | edit f content =>
        unfold Sealed.step
        dsimp only
        split
        · rename_i hf
          exact absurd (hf ▸ List.mem_cons_self) (hevents content)
        · split
          · exact ⟨hused, rfl⟩
          · exact ⟨hused, rfl⟩
      | build => exact ⟨by rw [Sealed.step, hused, Option.getD_some], rfl⟩
    obtain ⟨hlast, hptx⟩ := ih hstep.1 fun content he => hevents content (List.mem_cons_of_mem _ he)
    exact ⟨hlast, hptx.trans hstep.2⟩

/-- A text without backslashes and stand-ins is what its macro is read as. -/
theorem macroText_plain (hname : IsName macroName) {text : String} (hbackslash : '\\' ∉ text.toList)
    (htilde : '~' ∉ text.toList) :
    macroText macroName (generateMacrodefHeader macroName text) = some text := by
  have hmap : (text.toList.map fun c => if c = '~' then '\n' else c) = text.toList := by
    refine (List.map_congr_left fun c hc => if_neg ?_).trans (List.map_id _)
    rintro rfl
    exact htilde hc
  rw [macroText_eq hname, literals_echo hbackslash, Option.map_some, hmap, String.ofList_toList]

/-- **The PTX of a header is the one that is there**, and its key the one that
was there when this PTX was first built. However files are edited and built, and
whatever comes of the key before the PTX changes again, a header that has been
built defines its macro as that PTX under that key. -/
theorem encryptedPtx_history {x y : String} {events more : List (Event String String)}
    (h : PtxCall s target header stem ptx key macroName) (hname : IsName macroName)
    (hp : PtxPrograms p s hardware encrypt) (hf : PtxFiles p stem ptx key)
    (hpast : ∀ f, t.time f < t.clock) (hptx : t.disk ptx = some x) (hkey : t.disk key = some y)
    (hunbuilt : t.disk (stem ++ ".encrypt") = none)
    (hevents : EditsSources stem (events ++ .build :: more))
    (hmore : ∀ content, .edit ptx content ∉ more) :
    Returns (generateEncryptedPtxHeader s target header stem ptx key macroName) fun r =>
      ∃ t' key', history (r.2.commands.map fun c => c.toRule p) t (events ++ .build :: more) =
          some t' ∧
        ((⟨x, y, none⟩ : Sealed).run ptx key (events ++ [.build])).used = some key' ∧
        t'.disk ptx = some ((⟨x, y, none⟩ : Sealed).run ptx key events).ptx ∧
        (t'.disk (stem ++ ".encrypt.h")).bind (macroText macroName) =
          some (encrypt key' (hardware ((⟨x, y, none⟩ : Sealed).run ptx key events).ptx)) := by
  refine (generateEncryptedPtxHeader_returns h).mono fun r hr => ?_
  let start : Sealed := ⟨x, y, none⟩
  have hstart : Follows stem ptx key macroName hardware encrypt t start :=
    ⟨hpast, hptx, hkey, fun y hy => absurd hy.symm (Option.some_ne_none y), fun _ => .inl hunbuilt⟩
  obtain ⟨t', ht', hlast⟩ := hstart.history hp hf hevents
  -- the first build gives a key, and no event behind it changes that
  have hbuilt : ∃ key', (start.run ptx key (events ++ [.build])).used = some key' ∧
      (start.run ptx key (events ++ [.build])).ptx = (start.run ptx key events).ptx := by
    rw [Sealed.run, List.foldl_append, List.foldl_cons, List.foldl_nil]
    exact ⟨_, rfl, rfl⟩
  obtain ⟨key', hused, hsame⟩ := hbuilt
  have hsplit : events ++ .build :: more = events ++ [.build] ++ more := by simp
  rw [hsplit, Sealed.run, List.foldl_append] at hlast
  obtain ⟨hused', hptx'⟩ : ((start.run ptx key (events ++ [.build])).run ptx key more).used =
      some key' ∧ _ := Sealed.run_used hused hmore
  obtain ⟨-, hheader, -, -⟩ := hlast.built key' hused'
  refine ⟨t', key', ?_, hused, ?_, ?_⟩
  · rw [hr]
    exact ht'
  · exact hlast.ptx_there.trans (congrArg some (hptx'.trans hsame))
  · have hread : macroText macroName (sealedHeader macroName hardware encrypt key'
        (start.run ptx key events).ptx) =
          some (encrypt key' (hardware (start.run ptx key events).ptx)) := by
      obtain ⟨hbackslash, htilde⟩ := hp.base64 key' (hardware (start.run ptx key events).ptx)
      exact macroText_plain hname hbackslash htilde
    rw [hheader, Option.bind_some, show (List.foldl (Sealed.step ptx key)
      (List.foldl (Sealed.step ptx key) start (events ++ [.build])) more).ptx =
        (start.run ptx key events).ptx from hptx'.trans hsame]
    exact hread

/-- A directory with the tool and the script. -/
def ptxScope : Scope :=
  ((Scope.empty.assign "CMAKE_COMMAND" "cmake").assign "__location_ZILLIANS_CRYPTO_TOOL"
    "/bin/crypto").assign "ZILLIANS_SCRIPT_PATH" "/scripts"

/-- A text in the alphabet of the header. -/
def plainText (text : String) : String :=
  String.ofList (text.toList.filter fun c => c ≠ '\\' ∧ c ≠ '~')

/-- Programs whose ciphers are concatenations. -/
def concatenating : Programs String where
  cmake := "cmake"
  file w := w
  target words := if words.head? = some "/bin/crypto" then words[1]? else words[2]?
  output words d :=
    let text := (words[1]?.bind d).getD ""
    if words.head? ≠ some "/bin/crypto" then generateMacrodefHeader (words[3]?.getD "") text
    else if words[3]? = some "--key-file" then plainText ((words[4]?.bind d).getD "" ++ text)
    else "hardware" ++ text

theorem ptxPrograms_concatenating : PtxPrograms concatenating ptxScope ("hardware" ++ ·)
    fun y x => plainText (y ++ x) := by
  have hcrypto : ptxScope.value "__location_ZILLIANS_CRYPTO_TOOL" = "/bin/crypto" := by decide
  have hscript : headerScript ptxScope = "/scripts/generate_macrodef_header.sh" := by decide
  have htext : ∀ text : String, '\\' ∉ (plainText text).toList ∧ '~' ∉ (plainText text).toList := by
    intro text
    simp [plainText]
  refine ⟨by decide, by decide, fun f rest => ?_, fun f d x hx => ?_, fun f k d x y hx hy => ?_,
    fun y x => htext _, fun i o macroName => ?_, fun i o macroName d x hx => ?_⟩
  · simp [concatenating, hcrypto]
  · simp [concatenating, hcrypto, hx]
  · simp [concatenating, hcrypto, hx, hy]
  · simp [concatenating, hscript]
  · simp [concatenating, hscript, hx]

theorem ptxCall_ptxScope :
    PtxCall ptxScope "game" "HEADER" "out/kernel" "kernel.ptx" "key.bin" "PTX" := by
  constructor <;> decide +kernel

/-- A tree with the PTX and the key. -/
def ptxTree : Tree String String where
  disk f := if f = "kernel.ptx" then some "code" else if f = "key.bin" then some "first" else none
  time _ := 0
  clock := 1
  seen _ _ := none

/-- **A new key is not noticed**: the header keeps the first one. -/
theorem encryptedPtx_history_rekeyed :
    Returns (generateEncryptedPtxHeader ptxScope "game" "HEADER" "out/kernel" "kernel.ptx" "key.bin"
        "PTX") fun r =>
      ∃ t' key', history (r.2.commands.map fun c => c.toRule concatenating) ptxTree
          ([] ++ .build :: [.edit "key.bin" "second", .build]) = some t' ∧
        ((⟨"code", "first", none⟩ : Sealed).run "kernel.ptx" "key.bin" ([] ++ [.build])).used =
          some key' ∧
        t'.disk "kernel.ptx" = some "code" ∧
        (t'.disk "out/kernel.encrypt.h").bind (macroText "PTX") =
          some (plainText (key' ++ ("hardware" ++ "code"))) :=
  encryptedPtx_history ptxCall_ptxScope isName_ptx ptxPrograms_concatenating
    ⟨by decide, by decide, by decide⟩ (fun _ => Nat.zero_lt_one) rfl rfl (by decide)
    (by
      intro f content he
      simp only [List.nil_append, List.mem_cons, List.not_mem_nil, or_false, reduceCtorEq,
        Event.edit.injEq, false_or] at he
      obtain ⟨rfl, -⟩ := he
      decide)
    (by simp)

end Headers

end Supercell
