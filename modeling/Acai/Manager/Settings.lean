import Acai.Lib.Text
import Acai.Manager.BootScan

/-!
# Saved state of the manager

After a boot scan the manager saves its context to two text files, so that it can
be restarted without rebooting the guest: one with the settings, one with the
entries of the address map. This file models the files character by character:
`save_settings` prints them, `read_settings` and `read_mappings` scan them and
verify two checksums.

The loops over the map run up to, not including, `addr_map_pfn_max`, while the
lookup accepts this page frame number too, and the boot scan always gives it an
address. Its entry is therefore lost, and the checksum, which leaves it out as
well, does not notice.
-/

namespace Acai

/-! ## The settings file -/

/-- `WRITE_VAR` and `WRITE_CTX`. -/
def writeVar (name : String) (value : UInt64) : List Char :=
  name.toList ++ '=' :: '0' :: 'x' :: (printHex value ++ ['\n'])

/-- The word that `%lx` takes for the 32-bit `target_pid`. The upper half is whatever the argument
register holds there. -/
def pidWord (high : UInt32) (pid : Int32) : UInt64 :=
  UInt64.ofNat (pid.toUInt32.toNat + 2 ^ 32 * high.toNat)

def checksumSettings (ctx : CtxStruct) : UInt64 :=
  ctx.targetPid.toInt64.toUInt64 + ctx.targetFrom + ctx.targetTo + ctx.escapePagePfn +
    ctx.escapeVaddr + ctx.escapePageReserveSize + ctx.addrMapPfnMin + ctx.addrMapPfnMax +
    ctx.addrMapSize

def checksumVaddrs (ctx : CtxStruct) : UInt64 :=
  ctx.pfns.foldl (fun checksum pfn => checksum + getAddrMapVaddrVerify ctx pfn) 0

def settingsText (high : UInt32) (ctx : CtxStruct) : List Char :=
  writeVar "target_pid" (pidWord high ctx.targetPid) ++
  (writeVar "target_from" ctx.targetFrom ++
  (writeVar "target_to" ctx.targetTo ++
  (writeVar "escape_page_pfn" ctx.escapePagePfn ++
  (writeVar "escape_vaddr" ctx.escapeVaddr ++
  (writeVar "escape_page_reserve_size" ctx.escapePageReserveSize ++
  (writeVar "addr_map_pfn_min" ctx.addrMapPfnMin ++
  (writeVar "addr_map_pfn_max" ctx.addrMapPfnMax ++
  (writeVar "addr_map_size" ctx.addrMapSize ++
  (writeVar "checksum" (checksumSettings ctx) ++
  writeVar "checksum_vaddrs" (checksumVaddrs ctx))))))))))

structure Settings where
  ctx : CtxStruct
  checkSettings : UInt64

structure SettingsReader where
  lines : List (List Char)
  /-- The line buffer, which keeps its contents at the end of the file. -/
  line : List Char
  settings : Settings

/-- `READ_VAR` and `READ_CTX`: a line that does not match leaves the variable as it is. -/
def SettingsReader.readVar (reader : SettingsReader) (name : String)
    (store : UInt64 → Settings → Settings) : SettingsReader :=
  let line := reader.lines.head?.getD reader.line
  let settings :=
    match (line.dropPrefix? (name.toList ++ ['=', '0', 'x'])).bind scanHex with
    | some (value, _) => store value reader.settings
    | none => reader.settings
  ⟨reader.lines.tail, line, settings⟩

def SettingsReader.readCtx (reader : SettingsReader) (name : String)
    (store : UInt64 → CtxStruct → CtxStruct) : SettingsReader :=
  reader.readVar name fun value settings => { settings with ctx := store value settings.ctx }

/-- The store of a word to the 32-bit `target_pid`: its upper half goes to the lower half of
`target_from`, the next member. -/
def storeTargetPid (value : UInt64) (ctx : CtxStruct) : CtxStruct :=
  { ctx with
    targetPid := value.toUInt32.toInt32
    targetFrom := UInt64.ofNat (ctx.targetFrom.toNat / 2 ^ 32 * 2 ^ 32 + value.toNat / 2 ^ 32) }

def readAllSettings (reader : SettingsReader) : SettingsReader :=
  ((((((((((reader.readCtx "target_pid" storeTargetPid).readCtx
    "target_from" fun value ctx => { ctx with targetFrom := value }).readCtx
    "target_to" fun value ctx => { ctx with targetTo := value }).readCtx
    "escape_page_pfn" fun value ctx => { ctx with escapePagePfn := value }).readCtx
    "escape_vaddr" fun value ctx => { ctx with escapeVaddr := value }).readCtx
    "escape_page_reserve_size" fun value ctx => { ctx with escapePageReserveSize := value }).readCtx
    "addr_map_pfn_min" fun value ctx => { ctx with addrMapPfnMin := value }).readCtx
    "addr_map_pfn_max" fun value ctx => { ctx with addrMapPfnMax := value }).readCtx
    "addr_map_size" fun value ctx => { ctx with addrMapSize := value }).readVar
    "checksum" fun value settings => { settings with checkSettings := value }).readCtx
    "checksum_vaddrs" fun value ctx => { ctx with checksumVaddrs := value }

def lineSize : ℕ := 256

/-- `read_settings`. The file is `none` when it cannot be opened; `line` is what the line buffer
holds at first. -/
def readSettings (file : Option (List Char)) (line : List Char) (ctx : CtxStruct) :
    ℤ × CtxStruct :=
  match file with
  | none => (-1, ctx)
  | some text =>
      let reader := readAllSettings ⟨fgetsLines lineSize [] text, line, ⟨ctx, 0⟩⟩
      let settings := reader.settings
      if checksumSettings settings.ctx ≠ settings.checkSettings then (-1, settings.ctx)
      else (0, settings.ctx)

/-! ## The mapping file -/

def mappingLine (pfn vaddr : UInt64) : List Char :=
  '0' :: 'x' :: (printHex pfn ++ '=' :: '0' :: 'x' :: (printHex vaddr ++ ['\n']))

def savedPfns (ctx : CtxStruct) : List ℕ :=
  ctx.pfns.filter fun pfn => getAddrMapVaddrVerify ctx pfn ≠ 0

def mappingText (ctx : CtxStruct) : List Char :=
  (savedPfns ctx).flatMap fun pfn => mappingLine (UInt64.ofNat pfn) (getAddrMapVaddrVerify ctx pfn)

/-- `sscanf(line, "0x%lx=0x%lx", &key, &val)`: what does not match keeps its value. -/
def scanMapping (line : List Char) (keyVal : UInt64 × UInt64) : UInt64 × UInt64 :=
  match (line.dropPrefix? ['0', 'x']).bind scanHex with
  | none => keyVal
  | some (key, rest) =>
      match (rest.dropPrefix? ['=', '0', 'x']).bind scanHex with
      | none => (key, keyVal.2)
      | some (val, _) => (key, val)

/-- One round of the loop of `read_mappings`; the variables of the round before lie in the same
place. -/
def readMappingsStep (state : CtxStruct × UInt64 × UInt64) (line : List Char) :
    CtxStruct × UInt64 × UInt64 :=
  let keyVal := scanMapping line state.2
  (setAddrMapVaddr state.1 keyVal.1.toNat keyVal.2, keyVal)

def readMappings (file : Option (List Char)) (keyVal : UInt64 × UInt64) (ctx : CtxStruct) :
    ℤ × CtxStruct :=
  match file with
  | none => (-1, ctx)
  | some text =>
      let filled := ((fgetsLines lineSize [] text).foldl readMappingsStep (ctx, keyVal)).1
      if filled.checksumVaddrs ≠ checksumVaddrs filled then (-1, filled) else (0, filled)

structure Files where
  settings : Option (List Char)
  mapping : Option (List Char)

structure SaveOutcome where
  settings : Bool
  mapping : Bool

/-- `save_settings`: its result, and the files that it leaves. -/
def saveSettings (fopen : SaveOutcome) (high : UInt32) (files : Files) (ctx : CtxStruct) :
    ℤ × Files :=
  if !fopen.settings then (-1, files)
  else if !fopen.mapping then (-1, { files with settings := some (settingsText high ctx) })
  else (0, ⟨some (settingsText high ctx), some (mappingText ctx)⟩)

/-! ## Reading the settings back -/

theorem endsNumber_newline (rest : List Char) : EndsNumber ('\n' :: rest) := by
  intro char char_head
  cases char_head
  decide

theorem endsNumber_equals (rest : List Char) : EndsNumber ('=' :: rest) := by
  intro char char_head
  cases char_head
  decide

theorem dropPrefix_append (front rest : List Char) :
    (front ++ rest).dropPrefix? front = some rest :=
  List.dropPrefix?_eq_some_iff.mpr ⟨front, rfl, beq_self_eq_true front⟩

def ShortName (name : String) : Prop := '\n' ∉ name.toList ∧ name.toList.length ≤ 200

instance (name : String) : Decidable (ShortName name) :=
  inferInstanceAs (Decidable (_ ∧ _))

theorem fgetsLines_writeVar {name : String} (short : ShortName name) (value : UInt64)
    (rest : List Char) :
    fgetsLines lineSize [] (writeVar name value ++ rest) =
      writeVar name value :: fgetsLines lineSize [] rest := by
  have digits := length_printHex_le value
  have length := short.2
  have noNewline : '\n' ∉ name.toList ++ '=' :: '0' :: 'x' :: printHex value := by
    simp [short.1, newline_notMem_printHex]
  have line := @fgetsLines_line lineSize [] _ rest noNewline (by simp [lineSize]; omega)
  simpa [writeVar] using line

theorem readVar_writeVar {name : String} (short : ShortName name) (value : UInt64)
    (rest line : List Char) (settings : Settings) (store : UInt64 → Settings → Settings) :
    (SettingsReader.mk (fgetsLines lineSize [] (writeVar name value ++ rest)) line
        settings).readVar name store =
      ⟨fgetsLines lineSize [] rest, writeVar name value, store value settings⟩ := by
  have matched : ((writeVar name value).dropPrefix? (name.toList ++ ['=', '0', 'x'])).bind scanHex =
      some (value, ['\n']) := by
    have text : writeVar name value =
        (name.toList ++ ['=', '0', 'x']) ++ (printHex value ++ ['\n']) := by simp [writeVar]
    rw [text, dropPrefix_append, Option.bind_some, scanHex_printHex value (endsNumber_newline [])]
  rw [fgetsLines_writeVar short]
  simp only [SettingsReader.readVar, List.head?_cons, Option.getD_some, matched, List.tail_cons]

theorem pidWord_toInt32 (high : UInt32) (pid : Int32) :
    (pidWord high pid).toUInt32.toInt32 = pid := by
  have low : (pidWord high pid).toUInt32 = pid.toUInt32 := by
    apply UInt32.toNat.inj
    have pid_lt := pid.toUInt32.toNat_lt
    have high_lt := high.toNat_lt
    rw [pidWord, UInt64.toNat_toUInt32, UInt64.toNat_ofNat_of_lt' (by simp [UInt64.size]; omega)]
    omega
  rw [low, Int32.toInt32_toUInt32]

/-- The context that `read_settings` makes of the settings of `ctx`. -/
def readBack (ctx fresh : CtxStruct) : CtxStruct :=
  { ctx with
    targetMemFd := fresh.targetMemFd
    addrMap := fresh.addrMap
    checksumVaddrs := checksumVaddrs ctx }

/-- The settings are read back whatever the context held before. -/
theorem readSettings_settingsText (high : UInt32) (line : List Char) (ctx fresh : CtxStruct) :
    readSettings (some (settingsText high ctx)) line fresh = (0, readBack ctx fresh) := by
  have final := @readVar_writeVar "checksum_vaddrs" (by decide) (checksumVaddrs ctx) []
  rw [List.append_nil] at final
  simp only [readSettings, readAllSettings, SettingsReader.readCtx, settingsText]
  simp (disch := decide) only [readVar_writeVar, final]
  simp only [storeTargetPid, pidWord_toInt32]
  have verified : checksumSettings (readBack ctx fresh) = checksumSettings ctx := rfl
  exact if_neg (not_not.mpr verified)

/-! ## Reading the mappings back -/

theorem fgetsLines_mappingLine (pfn vaddr : UInt64) (rest : List Char) :
    fgetsLines lineSize [] (mappingLine pfn vaddr ++ rest) =
      mappingLine pfn vaddr :: fgetsLines lineSize [] rest := by
  have pfnDigits := length_printHex_le pfn
  have vaddrDigits := length_printHex_le vaddr
  have noNewline : '\n' ∉ '0' :: 'x' :: (printHex pfn ++ '=' :: '0' :: 'x' :: printHex vaddr) := by
    simp [newline_notMem_printHex]
  have line := @fgetsLines_line lineSize [] _ rest noNewline (by simp [lineSize]; omega)
  simpa [mappingLine] using line

theorem scanMapping_mappingLine (pfn vaddr : UInt64) (keyVal : UInt64 × UInt64) :
    scanMapping (mappingLine pfn vaddr) keyVal = (pfn, vaddr) := by
  have key : ((mappingLine pfn vaddr).dropPrefix? ['0', 'x']).bind scanHex =
      some (pfn, '=' :: '0' :: 'x' :: (printHex vaddr ++ ['\n'])) := by
    have text : mappingLine pfn vaddr =
        ['0', 'x'] ++ (printHex pfn ++ '=' :: '0' :: 'x' :: (printHex vaddr ++ ['\n'])) := by
      simp [mappingLine]
    rw [text, dropPrefix_append, Option.bind_some, scanHex_printHex pfn (endsNumber_equals _)]
  have val : (List.dropPrefix? ('=' :: '0' :: 'x' :: (printHex vaddr ++ ['\n']))
      ['=', '0', 'x']).bind scanHex = some (vaddr, ['\n']) := by
    have text : '=' :: '0' :: 'x' :: (printHex vaddr ++ ['\n']) =
        ['=', '0', 'x'] ++ (printHex vaddr ++ ['\n']) := rfl
    rw [text, dropPrefix_append, Option.bind_some, scanHex_printHex vaddr (endsNumber_newline [])]
  simp only [scanMapping, key, val]

def storeEntries (vaddr : ℕ → UInt64) (pfns : List ℕ) (ctx : CtxStruct) : CtxStruct :=
  pfns.foldl (fun filled pfn => setAddrMapVaddr filled pfn (vaddr pfn)) ctx

/-- Reading the lines of some entries stores these entries, one after the other. -/
theorem foldl_readMappingsStep (vaddr : ℕ → UInt64) {pfns : List ℕ}
    (inSpace : ∀ pfn ∈ pfns, pfn < 2 ^ 64) (ctx : CtxStruct) (keyVal : UInt64 × UInt64) :
    ((fgetsLines lineSize []
        (pfns.flatMap fun pfn => mappingLine (UInt64.ofNat pfn) (vaddr pfn))).foldl
      readMappingsStep (ctx, keyVal)).1 = storeEntries vaddr pfns ctx := by
  induction pfns generalizing ctx keyVal with
  | nil => rfl
  | cons pfn pfns ih =>
      have small := inSpace pfn List.mem_cons_self
      have rest := ih fun other other_mem => inSpace other (List.mem_cons_of_mem _ other_mem)
      rw [List.flatMap_cons, fgetsLines_mappingLine, List.foldl_cons, readMappingsStep,
        scanMapping_mappingLine, rest,
        UInt64.toNat_ofNat_of_lt' (by simpa [UInt64.size] using small)]
      rfl

theorem storeEntries_eq (vaddr : ℕ → UInt64) (pfns : List ℕ) (ctx : CtxStruct) :
    storeEntries vaddr pfns ctx =
      { ctx with addrMap := (storeEntries vaddr pfns ctx).addrMap } := by
  induction pfns generalizing ctx with
  | nil => rfl
  | cons pfn pfns ih =>
      have rest := ih (setAddrMapVaddr ctx pfn (vaddr pfn))
      simp only [storeEntries, List.foldl_cons] at rest ⊢
      rw [rest]
      unfold setAddrMapVaddr
      split <;> rfl

theorem getAddrMapVaddrVerify_storeEntries (vaddr : ℕ → UInt64) {pfns : List ℕ} {ctx : CtxStruct}
    (inRange : ∀ pfn ∈ pfns, ctx.addrMapPfnMin.toNat ≤ pfn ∧ pfn ≤ ctx.addrMapPfnMax.toNat)
    (pfn : ℕ) :
    getAddrMapVaddrVerify (storeEntries vaddr pfns ctx) pfn =
      if pfn ∈ pfns then vaddr pfn else getAddrMapVaddrVerify ctx pfn := by
  induction pfns generalizing ctx with
  | nil => rfl
  | cons first pfns ih =>
      have firstInRange := inRange first List.mem_cons_self
      have rest := @ih (setAddrMapVaddr ctx first (vaddr first)) (by
        intro other other_mem
        rw [setAddrMapVaddr_pfnMin, setAddrMapVaddr_pfnMax]
        exact inRange other (List.mem_cons_of_mem _ other_mem))
      simp only [storeEntries, List.foldl_cons] at rest ⊢
      rw [rest, getAddrMapVaddrVerify_setAddrMapVaddr]
      by_cases later : pfn ∈ pfns
      · simp [later]
      · by_cases here : pfn = first
        · subst here
          simp [firstInRange]
        · simp [later, here]

/-! ## The boot scan leaves an entry at the greatest page frame number -/

section

variable {target : Target}

/-- What a successful boot scan leaves: the size of the map follows from its dimensions, and the
greatest page frame number has an address unless the range is empty. -/
structure Filled (ctx : CtxStruct) : Prop where
  size_eq : ctx.addrMapSize = 8 * (ctx.addrMapPfnMax - ctx.addrMapPfnMin)
  size_ne : ctx.addrMapSize ≠ 0
  max_mapped : ctx.addrMapPfnMax < ctx.addrMapPfnMin ∨
    getAddrMapVaddrVerify ctx ctx.addrMapPfnMax.toNat ≠ 0

theorem ofNat_ne_zero_of_mem_scanned {ctx : CtxStruct} (nonnull : ctx.targetFrom ≠ 0) {addr : ℕ}
    (addr_mem : addr ∈ ctx.scanned) : UInt64.ofNat addr ≠ 0 := by
  have from_pos : 0 < ctx.targetFrom.toNat := by
    apply Nat.pos_of_ne_zero
    intro zero
    exact nonnull (UInt64.toNat.inj zero)
  intro zero
  have addr_eq := toNat_ofNat_of_mem_scanned addr_mem
  rcases (mem_scanned.mp addr_mem).1 with ⟨index, rfl⟩
  rw [zero, UInt64.toNat_zero] at addr_eq
  omega

theorem filled_of_bootScan {mmap : Option (ℕ → UInt64)} {start ctx : CtxStruct}
    (nonnull : start.targetFrom ≠ 0) (success : bootScan mmap start target = (0, ctx)) :
    Filled ctx := by
  rcases bootScan_ok success with ⟨filled, initialised, rfl⟩
  rcases initAddrMap_ok initialised with ⟨behind, -, size_ne, filled_eq⟩
  have scanned : filled.scanned = start.scanned := by
    rw [filled_eq]
    rfl
  rcases bootScan_dims success with ⟨min_eq, max_eq⟩
  refine ⟨?_, ?_, ?_⟩
  · rw [fvpmemScanAddresses, foldl_scanAddressesStep_dims, filled_eq]
  · rw [fvpmemScanAddresses, foldl_scanAddressesStep_dims, filled_eq]
    exact size_ne
  · rw [max_eq, min_eq]
    by_cases noTag : start.tags target = []
    · left
      rw [fvpmemFindDimensions_of_noTags noTag]
      decide
    right
    have ordered := fvpmemFindDimensions_min_le_max noTag
    rcases mem_tags.mp (fvpmemFindDimensions_max_mem noTag) with ⟨addr, page⟩
    rcases mem_taggedPages.mp page with ⟨addr_mem, carries⟩
    rcases @getAddrMapVaddrVerify_foldl target _ (scanned_ascending filled) filled
      (fvpmemFindDimensions start target).2.toNat
      (by rw [filled_eq]; exact ⟨UInt64.le_iff_toNat_le.mp ordered, le_rfl⟩) with
      ⟨highest, greatest, lookup⟩ | ⟨none, -⟩
    · rw [fvpmemScanAddresses, lookup]
      have highest_mem := greatest.1.1
      rw [scanned] at highest_mem
      exact ofNat_ne_zero_of_mem_scanned nonnull highest_mem
    · exact absurd carries (none addr (by rwa [scanned]))

end

/-! ## The round trip -/

/-- The steps of `map_memory_from_file` that restore the context. -/
def restore (files : Files) (line : List Char) (keyVal : UInt64 × UInt64)
    (mmap : Option (ℕ → UInt64)) (pid : Int32) (fresh : CtxStruct) : ℤ × CtxStruct :=
  match readSettings files.settings line fresh with
  | (0, ctx) =>
      if ctx.targetPid ≠ pid then (-1, ctx)
      else
        match initAddrMap mmap ctx ctx.addrMapPfnMin ctx.addrMapPfnMax with
        | (0, ctx') => readMappings files.mapping keyVal ctx'
        | failed => failed
  | failed => failed

theorem restore_of_ok {files : Files} {line : List Char} {keyVal : UInt64 × UInt64}
    {mmap : Option (ℕ → UInt64)} {pid : Int32} {fresh ctx ctx' : CtxStruct}
    (settings : readSettings files.settings line fresh = (0, ctx)) (samePid : ctx.targetPid = pid)
    (initialised : initAddrMap mmap ctx ctx.addrMapPfnMin ctx.addrMapPfnMax = (0, ctx')) :
    restore files line keyVal mmap pid fresh = readMappings files.mapping keyVal ctx' := by
  simp [restore, settings, samePid, initialised]

/-- The restored context agrees with the saved one, and so do all its lookups. -/
structure Restores (ctx restored : CtxStruct) : Prop where
  targetPid : restored.targetPid = ctx.targetPid
  targetFrom : restored.targetFrom = ctx.targetFrom
  targetTo : restored.targetTo = ctx.targetTo
  escapePagePfn : restored.escapePagePfn = ctx.escapePagePfn
  escapeVaddr : restored.escapeVaddr = ctx.escapeVaddr
  escapePageReserveSize : restored.escapePageReserveSize = ctx.escapePageReserveSize
  addrMapPfnMin : restored.addrMapPfnMin = ctx.addrMapPfnMin
  addrMapPfnMax : restored.addrMapPfnMax = ctx.addrMapPfnMax
  addrMapSize : restored.addrMapSize = ctx.addrMapSize
  lookup : ∀ pfn, ctx.addrMapPfnMin.toNat ≤ pfn → pfn ≤ ctx.addrMapPfnMax.toNat →
    getAddrMapVaddrVerify restored pfn = getAddrMapVaddrVerify ctx pfn

def remapped (behind : ℕ → UInt64) (ctx fresh : CtxStruct) : CtxStruct :=
  { readBack ctx fresh with
    addrMap := fun index => if index < mappedWords ctx.addrMapSize then 0 else behind index }

def restoredCtx (behind : ℕ → UInt64) (ctx fresh : CtxStruct) : CtxStruct :=
  storeEntries (getAddrMapVaddrVerify ctx) (savedPfns ctx) (remapped behind ctx fresh)

section

variable {behind : ℕ → UInt64} {ctx fresh : CtxStruct}

theorem mem_savedPfns {pfn : ℕ} :
    pfn ∈ savedPfns ctx ↔ (ctx.addrMapPfnMin.toNat ≤ pfn ∧ pfn < ctx.addrMapPfnMax.toNat) ∧
      getAddrMapVaddrVerify ctx pfn ≠ 0 := by
  simp only [savedPfns, CtxStruct.pfns, List.mem_filter, List.mem_range'_1, decide_eq_true_eq]
  constructor <;> rintro ⟨range, mapped⟩ <;> exact ⟨by omega, mapped⟩

theorem restoredCtx_eq :
    restoredCtx behind ctx fresh =
      { readBack ctx fresh with addrMap := (restoredCtx behind ctx fresh).addrMap } := by
  rw [restoredCtx, storeEntries_eq]
  rfl

theorem restore_saveSettings (filled : Filled ctx) (high : UInt32) (line : List Char)
    (keyVal : UInt64 × UInt64) (files : Files) :
    restore (saveSettings ⟨true, true⟩ high files ctx).2 line keyVal (some behind) ctx.targetPid
        fresh =
      (if checksumVaddrs ctx ≠ checksumVaddrs (restoredCtx behind ctx fresh) then -1 else 0,
        restoredCtx behind ctx fresh) := by
  have initialised : initAddrMap (some behind) (readBack ctx fresh) ctx.addrMapPfnMin
      ctx.addrMapPfnMax = (0, remapped behind ctx fresh) := by
    have size_ne := filled.size_ne
    rw [filled.size_eq] at size_ne
    simp only [initAddrMap, size_ne, ↓reduceIte, remapped, filled.size_eq]
    rw [← filled.size_eq]
    rfl
  have inSpace : ∀ pfn ∈ savedPfns ctx, pfn < 2 ^ 64 := by
    intro pfn pfn_mem
    have max_lt := ctx.addrMapPfnMax.toNat_lt
    have range := (mem_savedPfns.mp pfn_mem).1
    omega
  have entries := foldl_readMappingsStep (getAddrMapVaddrVerify ctx) inSpace
    (remapped behind ctx fresh) keyVal
  have checksum : (restoredCtx behind ctx fresh).checksumVaddrs = checksumVaddrs ctx := by
    rw [restoredCtx_eq]
    rfl
  have settings : (saveSettings ⟨true, true⟩ high files ctx).2 =
      ⟨some (settingsText high ctx), some (mappingText ctx)⟩ := rfl
  have samePid : (readBack ctx fresh).targetPid = ctx.targetPid := rfl
  rw [settings, restore_of_ok (readSettings_settingsText high line ctx fresh) samePid initialised]
  simp only [readMappings, mappingText, entries]
  rw [← restoredCtx, checksum]
  split <;> rfl

theorem getAddrMapVaddrVerify_restoredCtx {pfn : ℕ} (minLe : ctx.addrMapPfnMin.toNat ≤ pfn)
    (leMax : pfn ≤ ctx.addrMapPfnMax.toNat) :
    getAddrMapVaddrVerify (restoredCtx behind ctx fresh) pfn =
      if pfn < ctx.addrMapPfnMax.toNat ∧ getAddrMapVaddrVerify ctx pfn ≠ 0 then
        getAddrMapVaddrVerify ctx pfn
      else if pfn - ctx.addrMapPfnMin.toNat < mappedWords ctx.addrMapSize then 0
      else behind (pfn - ctx.addrMapPfnMin.toNat) := by
  have inRange : ∀ saved ∈ savedPfns ctx,
      (remapped behind ctx fresh).addrMapPfnMin.toNat ≤ saved ∧
        saved ≤ (remapped behind ctx fresh).addrMapPfnMax.toNat := by
    intro saved saved_mem
    have range := (mem_savedPfns.mp saved_mem).1
    exact ⟨range.1, range.2.le⟩
  have emptySlot : getAddrMapVaddrVerify (remapped behind ctx fresh) pfn =
      if pfn - ctx.addrMapPfnMin.toNat < mappedWords ctx.addrMapSize then 0
      else behind (pfn - ctx.addrMapPfnMin.toNat) := if_pos ⟨minLe, leMax⟩
  rw [restoredCtx, getAddrMapVaddrVerify_storeEntries _ inRange, emptySlot]
  by_cases saved : pfn < ctx.addrMapPfnMax.toNat ∧ getAddrMapVaddrVerify ctx pfn ≠ 0
  · rw [if_pos (mem_savedPfns.mpr ⟨⟨minLe, saved.1⟩, saved.2⟩), if_pos saved]
  · rw [if_neg saved, if_neg]
    intro pfn_mem
    rw [mem_savedPfns] at pfn_mem
    exact saved ⟨pfn_mem.1.2, pfn_mem.2⟩

/-- The entries that `save_settings` leaves out are found in the fresh array all the same: the
range is empty, or `addr_map_pfn_max` lies behind the pages of the array and its address stands
there already, and every hole behind these pages reads as 0. -/
def Recoverable (behind : ℕ → UInt64) (ctx : CtxStruct) : Prop :=
  ctx.addrMapPfnMax.toNat < ctx.addrMapPfnMin.toNat ∨
    (mappedWords ctx.addrMapSize ≤ ctx.addrMapPfnMax.toNat - ctx.addrMapPfnMin.toNat ∧
      behind (ctx.addrMapPfnMax.toNat - ctx.addrMapPfnMin.toNat) =
        getAddrMapVaddrVerify ctx ctx.addrMapPfnMax.toNat) ∧
    ∀ pfn, ctx.addrMapPfnMin.toNat ≤ pfn → pfn < ctx.addrMapPfnMax.toNat →
      getAddrMapVaddrVerify ctx pfn = 0 →
      mappedWords ctx.addrMapSize ≤ pfn - ctx.addrMapPfnMin.toNat →
      behind (pfn - ctx.addrMapPfnMin.toNat) = 0

/-- All lookups come back exactly when the entries that are not saved are recoverable. -/
theorem lookup_restoredCtx_iff (filled : Filled ctx) :
    (∀ pfn, ctx.addrMapPfnMin.toNat ≤ pfn → pfn ≤ ctx.addrMapPfnMax.toNat →
      getAddrMapVaddrVerify (restoredCtx behind ctx fresh) pfn = getAddrMapVaddrVerify ctx pfn) ↔
    Recoverable behind ctx := by
  constructor
  · intro lookups
    by_cases empty : ctx.addrMapPfnMax.toNat < ctx.addrMapPfnMin.toNat
    · left
      exact empty
    rw [not_lt] at empty
    have maxMapped : getAddrMapVaddrVerify ctx ctx.addrMapPfnMax.toNat ≠ 0 := by
      rcases filled.max_mapped with contradiction | mapped
      · exact absurd (UInt64.lt_iff_toNat_lt.mp contradiction) (not_lt.mpr empty)
      · exact mapped
    right
    refine ⟨?_, ?_⟩
    · have atMax := lookups ctx.addrMapPfnMax.toNat empty le_rfl
      rw [getAddrMapVaddrVerify_restoredCtx empty le_rfl, if_neg (by simp)] at atMax
      split at atMax
      · exact absurd atMax.symm maxMapped
      · exact ⟨by omega, atMax⟩
    · intro pfn minLe ltMax hole outside
      have atPfn := lookups pfn minLe ltMax.le
      rw [getAddrMapVaddrVerify_restoredCtx minLe ltMax.le, if_neg (by simp [hole]),
        if_neg (by omega), hole] at atPfn
      exact atPfn
  · intro recoverable pfn minLe leMax
    rw [getAddrMapVaddrVerify_restoredCtx minLe leMax]
    rcases recoverable with empty | ⟨⟨outside, atMax⟩, holes⟩
    · omega
    split
    · rfl
    rename_i notSaved
    by_cases last : pfn = ctx.addrMapPfnMax.toNat
    · rw [last, if_neg (by omega), atMax]
    · have hole : getAddrMapVaddrVerify ctx pfn = 0 := by
        by_contra mapped
        exact notSaved ⟨by omega, mapped⟩
      rw [hole]
      split
      · rfl
      · exact holes pfn minLe (by omega) hole (by omega)

theorem checksumVaddrs_restoredCtx
    (lookups : ∀ pfn, ctx.addrMapPfnMin.toNat ≤ pfn → pfn ≤ ctx.addrMapPfnMax.toNat →
      getAddrMapVaddrVerify (restoredCtx behind ctx fresh) pfn = getAddrMapVaddrVerify ctx pfn) :
    checksumVaddrs (restoredCtx behind ctx fresh) = checksumVaddrs ctx := by
  have pfns : (restoredCtx behind ctx fresh).pfns = ctx.pfns := by
    rw [restoredCtx_eq]
    rfl
  rw [checksumVaddrs, checksumVaddrs, pfns]
  apply List.foldl_ext
  intro checksum pfn pfn_mem
  rw [CtxStruct.pfns, List.mem_range'_1] at pfn_mem
  rw [lookups pfn (by omega) (by omega)]

theorem restore_saveSettings_iff (filled : Filled ctx) (high : UInt32) (line : List Char)
    (keyVal : UInt64 × UInt64) (files : Files) :
    (∃ restored, restore (saveSettings ⟨true, true⟩ high files ctx).2 line keyVal (some behind)
        ctx.targetPid fresh = (0, restored) ∧ Restores ctx restored) ↔ Recoverable behind ctx := by
  rw [restore_saveSettings filled, ← @lookup_restoredCtx_iff behind ctx fresh filled]
  constructor
  · rintro ⟨restored, returned, restores⟩
    cases (Prod.mk.inj returned).2
    exact restores.lookup
  · intro lookups
    refine ⟨_, Prod.ext ?_ rfl, ?_⟩
    · exact if_neg (not_not.mpr (checksumVaddrs_restoredCtx lookups).symm)
    · constructor
      case lookup => exact lookups
      all_goals
        rw [restoredCtx_eq]
        rfl

end

/--
After a boot scan, saving and restoring gives back the context with every lookup
exactly when the entries that `save_settings` leaves out are found in the fresh
array by chance. The entry of `addr_map_pfn_max` is always among them.
-/
theorem saveSettings_restores_iff {target : Target} {mmap : Option (ℕ → UInt64)}
    {start ctx : CtxStruct} (nonnull : start.targetFrom ≠ 0)
    (scanned : bootScan mmap start target = (0, ctx)) (high : UInt32) (line : List Char)
    (keyVal : UInt64 × UInt64) (files : Files) (behind : ℕ → UInt64) (fresh : CtxStruct) :
    (∃ restored, restore (saveSettings ⟨true, true⟩ high files ctx).2 line keyVal (some behind)
        ctx.targetPid fresh = (0, restored) ∧ Restores ctx restored) ↔ Recoverable behind ctx :=
  restore_saveSettings_iff (filled_of_bootScan nonnull scanned) high line keyVal files

theorem saveSettings_restores_twoTagged :
    CtxStruct.twoTagged.targetFrom ≠ 0 ∧ ∃ ctx,
      bootScan (some fun _ => 0) .twoTagged twoTagged = (0, ctx) ∧
      ((∃ restored, restore (saveSettings ⟨true, true⟩ 0 ⟨none, none⟩ ctx).2 [] (0, 0)
          (some fun _ => 0) ctx.targetPid .zero = (0, restored) ∧ Restores ctx restored) ↔
        Recoverable (fun _ => 0) ctx) := by
  have nonnull : CtxStruct.twoTagged.targetFrom ≠ 0 := by decide
  have scanned : bootScan (some fun _ => 0) .twoTagged twoTagged =
      (0, (bootScan (some fun _ => 0) .twoTagged twoTagged).2) := rfl
  exact ⟨nonnull, _, scanned, saveSettings_restores_iff nonnull scanned 0 [] (0, 0) ⟨none, none⟩
    (fun _ => 0) .zero⟩

/-- The entry of the greatest page frame number is lost. -/
theorem restore_loses_pfnMax :
    ¬∀ (target : Target) (mmap : Option (ℕ → UInt64)) (start ctx : CtxStruct),
      start.targetFrom ≠ 0 → bootScan mmap start target = (0, ctx) →
      ∀ (high : UInt32) (line : List Char) (keyVal : UInt64 × UInt64) (files : Files)
        (behind : ℕ → UInt64) (fresh : CtxStruct),
        ∃ restored, restore (saveSettings ⟨true, true⟩ high files ctx).2 line keyVal (some behind)
          ctx.targetPid fresh = (0, restored) ∧ Restores ctx restored := by
  intro claim
  have scanned : bootScan (some fun _ => 0) .twoTagged twoTagged =
      (0, (bootScan (some fun _ => 0) .twoTagged twoTagged).2) := rfl
  have nonnull : CtxStruct.twoTagged.targetFrom ≠ 0 := by decide
  have filled := filled_of_bootScan nonnull scanned
  have recoverable := (restore_saveSettings_iff filled 0 [] (0, 0) ⟨none, none⟩).mp
    (claim _ _ _ _ nonnull scanned 0 [] (0, 0) ⟨none, none⟩ (fun _ => 0) .zero)
  rcases recoverable with empty | ⟨⟨outside, -⟩, -⟩
  · exact absurd empty (by decide)
  · exact absurd outside (by decide)

end Acai
