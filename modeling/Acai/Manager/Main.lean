import Acai.Manager.RegionMap
import Acai.Manager.Settings

/-!
# The manager from start to end

`main` of the manager maps the escape page of the target into its own address
space, first from the saved state and, when that fails, by a scan of the target.
While it runs, page-table entries of the manager point to frames of the target. If
the process ended like this, the kernel would free these frames, so that the
entries must have their own values again: at the regular end and in the crash
handler, which may run between any two steps.

The context owns the saved entries. The fallback after `map_memory_from_file`
clears the context, also when the region has been mapped before the failure; the
saved entries are lost then. In every other run the page table is restored.

`main` is a machine whose steps are its top-level statements. Everything that the
system decides is data of the run (`MainEnv`); the crash handler is a second way to
end after any number of steps.
-/

namespace Acai

structure EscapePage where
  address : ℕ
  nonnull : address ≠ 0
  populated : PageTable

/-- The part of the process that the page-table edits concern. -/
structure Process where
  ctx : CtxStruct
  region : MmapRegionCtx
  host : PageTable
  /-- The page table as it would be without redirected entries. -/
  original : PageTable

/-- What the system decides in one run of `main`. -/
structure MainEnv where
  pid : Int32
  pteditInit : Bool
  hookOpen : Bool
  /-- The range in the stat file, if the file is valid. -/
  statFile : Option (UInt64 × UInt64)
  memFd : Option Int32
  files : Files
  /-- What the line buffer of `read_settings` holds at first. -/
  line : List Char
  /-- What the variables of `read_mappings` hold at first. -/
  keyVal : UInt64 × UInt64
  /-- `create_escape_page`, the region and the array in `map_memory_from_file`. -/
  fileEscapePage : Option EscapePage
  fileRegion : RegionOutcome
  fileMmap : Option (ℕ → UInt64)
  /-- The same in `map_memory_fvp_boot`. -/
  bootEscapePage : Option EscapePage
  bootRegion : RegionOutcome
  bootMmap : Option (ℕ → UInt64)
  target : Target
  targetTable : PageTable
  reserveSize : UInt64
  doInit : ℤ
  enableTrace : ℤ

/-! ## Mapping the escape page -/

def escapePages : ℕ := escapePageSize / pageSize

def EscapePage.covers (block : EscapePage) (page : ℕ) : Bool :=
  block.address / pageSize ≤ page ∧ page < block.address / pageSize + escapePages

/-- The kernel fills in the entries of a new block. -/
def EscapePage.populate (block : EscapePage) (host : PageTable) : PageTable := fun page =>
  if block.covers page then block.populated page else host page

def Process.populate (process : Process) (block : EscapePage) : Process :=
  { process with
    host := block.populate process.host
    original := block.populate process.original }

def Process.mmapRegion (process : Process)
    (result : ℤ × MmapRegionCtx × PageTable) : Process :=
  { process with region := result.2.1, host := result.2.2 }

def mmapEscapePage (env : MainEnv) (outcome : RegionOutcome) (block : EscapePage)
    (process : Process) : ℤ × MmapRegionCtx × PageTable :=
  fhMmapRegion outcome env.targetTable process.ctx.escapeVaddr.toNat escapePageSize block.address
    process.region process.host

/-- A new block, and `fh_mmap_region` on it; `none` when an assertion aborts the process. -/
def mapEscapePage (env : MainEnv) (peditInit : Bool) (outcome : RegionOutcome) (block : EscapePage)
    (process : Process) : Option ℤ × Process :=
  if !peditInit then (none, process.populate block)
  else
    (some (mmapEscapePage env outcome block (process.populate block)).1,
      (process.populate block).mmapRegion
        (mmapEscapePage env outcome block (process.populate block)))

def mapMemoryFromFile (env : MainEnv) (peditInit : Bool) (process : Process) :
    Option ℤ × Process :=
  let settings := readSettings env.files.settings env.line process.ctx
  let process' := { process with ctx := settings.2 }
  if settings.1 ≠ 0 then (some settings.1, process')
  else if settings.2.targetPid ≠ env.pid then (some (-1), process')
  else
    match env.fileEscapePage with
    | none => (some (-1), process')
    | some block =>
        let mapped := mapEscapePage env peditInit env.fileRegion block process'
        if mapped.1 ≠ some 0 then mapped
        else
          let init := initAddrMap env.fileMmap settings.2 settings.2.addrMapPfnMin
            settings.2.addrMapPfnMax
          if init.1 ≠ 0 then (some init.1, { mapped.2 with ctx := init.2 })
          else
            let mappings := readMappings env.files.mapping env.keyVal init.2
            (some mappings.1, { mapped.2 with ctx := mappings.2 })

def fvpEscapeMagic : UInt64 := 0xCAFECAFECAFECA01

/-- One pass of the search in `fvpmem_find_escape_page`; it is repeated until it finds a page. -/
def fvpmemFindEscapePage (ctx : CtxStruct) (target : Target) : Option (UInt64 × UInt64) :=
  ctx.scanned.findSome? fun addr =>
    match target addr with
    | none => none
    | some escape =>
        if escape.ctrlMagic = fvpControlMagic ∧ escape.escapeMagic = fvpEscapeMagic then
          some (UInt64.ofNat addr, escape.addrTag)
        else none

def mapMemoryFvpBoot (env : MainEnv) (peditInit : Bool) (found : UInt64 × UInt64)
    (process : Process) : Option ℤ × Process :=
  let process' :=
    { process with
      ctx := { process.ctx with escapePagePfn := found.2, escapeVaddr := found.1 } }
  match env.bootEscapePage with
  | none => (some (-1), process')
  | some block =>
      let mapped := mapEscapePage env peditInit env.bootRegion block process'
      if mapped.1 ≠ some 0 then mapped
      else
        let scanned := bootScan env.bootMmap
          { mapped.2.ctx with escapePageReserveSize := env.reserveSize } env.target
        (some scanned.1, { mapped.2 with ctx := scanned.2 })

def unmapFvpMemory (process : Process) : Process :=
  let unmapped := fhUnmmapRegion process.region process.host
  { process with
    ctx :=
      { process.ctx with
        addrMap := fun _ => 0
        addrMapPfnMin := 0
        addrMapPfnMax := 0
        addrMapSize := 0 }
    region := unmapped.1
    host := unmapped.2 }

/-! ## The steps of `main` -/

inductive MainPc where
  | getPid
  | fhInit
  | cleanUpHook
  | readStatFile
  | openMemFd
  | mapMemoryFromFile
  | resetCtx
  | mapMemoryFvpBoot
  | saveSettings
  | verifyMappings
  | doInit
  | enableTrace
  | joinListener
  | hexDump
  | unmapFvpMemory
  | disableTrace
  | fhCleanUp
  | ended
  deriving DecidableEq

structure MainState where
  pc : MainPc
  process : Process
  handlers : Bool
  peditInit : Bool
  hook : Bool
  hasFaulthook : Bool

/-- `_fh_crash_handler`, or the default action when no handler is installed. -/
def fhCrashHandler (state : MainState) : MainState :=
  if state.handlers && state.hook then
    { state with pc := .ended, process := unmapFvpMemory state.process, hook := false }
  else { state with pc := .ended }

def targetCtx (env : MainEnv) (range : UInt64 × UInt64) (memFd : Int32) : CtxStruct :=
  { CtxStruct.zero with
    targetMemFd := memFd
    targetPid := env.pid
    targetFrom := range.1
    targetTo := range.2 }

/-- One top-level statement of `main`. An assertion that fails raises `SIGABRT`. -/
def mainStep (env : MainEnv) (state : MainState) : MainState :=
  match state.pc with
  | .getPid => { state with pc := if env.pid = 0 then .ended else .fhInit }
  | .fhInit =>
      { state with
        pc := .cleanUpHook
        handlers := true
        peditInit := env.pteditInit
        hasFaulthook := env.pteditInit && env.hookOpen }
  | .cleanUpHook => { state with pc := .readStatFile, hook := true }
  | .readStatFile => { state with pc := if env.statFile = none then .ended else .openMemFd }
  | .openMemFd =>
      match env.memFd with
      | none => { state with pc := .unmapFvpMemory }
      | some memFd =>
          { state with
            pc := .mapMemoryFromFile
            process :=
              { state.process with ctx := targetCtx env (env.statFile.getD (0, 0)) memFd } }
  | .mapMemoryFromFile =>
      let result := mapMemoryFromFile env state.peditInit state.process
      match result.1 with
      | none => fhCrashHandler { state with process := result.2 }
      | some ret =>
          { state with pc := if ret ≠ 0 then .resetCtx else .verifyMappings, process := result.2 }
  | .resetCtx =>
      { state with
        pc := .mapMemoryFvpBoot
        process :=
          { state.process with
            ctx := targetCtx env (env.statFile.getD (0, 0)) (env.memFd.getD 0)
            region := .zero } }
  | .mapMemoryFvpBoot =>
      match fvpmemFindEscapePage state.process.ctx env.target with
      | none => state
      | some found =>
          let result := mapMemoryFvpBoot env state.peditInit found state.process
          match result.1 with
          | none => fhCrashHandler { state with process := result.2 }
          | some ret =>
              { state with
                pc := if ret ≠ 0 then .unmapFvpMemory else .saveSettings
                process := result.2 }
  | .saveSettings => { state with pc := .verifyMappings }
  | .verifyMappings => { state with pc := if state.hasFaulthook then .doInit else .hexDump }
  | .doInit => { state with pc := if env.doInit ≠ 0 then .unmapFvpMemory else .enableTrace }
  | .enableTrace =>
      { state with pc := if env.enableTrace ≠ 0 then .unmapFvpMemory else .joinListener }
  | .joinListener => { state with pc := .unmapFvpMemory }
  | .hexDump => state
  | .unmapFvpMemory =>
      { state with pc := .disableTrace, process := unmapFvpMemory state.process }
  | .disableTrace => { state with pc := .fhCleanUp }
  | .fhCleanUp => { state with pc := .ended, hook := false, peditInit := false }
  | .ended => state

def mainStart (host : PageTable) : MainState where
  pc := .getPid
  process := ⟨CtxStruct.zero, .zero, host, host⟩
  handlers := false
  peditInit := false
  hook := false
  hasFaulthook := false

def mainRun (env : MainEnv) (host : PageTable) (steps : ℕ) : MainState :=
  (mainStep env)^[steps] (mainStart host)

/-! ## The invariant -/

/-- Unmapping what the context holds gives back the original page table. -/
def Process.Tracked (process : Process) : Prop :=
  (fhUnmmapRegion process.region process.host).2 = process.original

theorem fhUnmmapRegion_of_empty {region : MmapRegionCtx} (empty : region.entries = none)
    (host : PageTable) : fhUnmmapRegion region host = (region, host) := by
  simp only [fhUnmmapRegion, empty]

theorem fhUnmmapRegion_empty (region : MmapRegionCtx) (host : PageTable) :
    (fhUnmmapRegion region host).1.entries = none := by
  unfold fhUnmmapRegion
  split
  · assumption
  · rfl

section

variable {env : MainEnv} {peditInit : Bool} {process process' : Process} {ret : Option ℤ}

theorem Process.Tracked.host_eq (tracked : process.Tracked)
    (empty : process.region.entries = none) : process.host = process.original := by
  rw [Tracked, fhUnmmapRegion_of_empty empty] at tracked
  exact tracked

theorem Process.tracked_of_eq (empty : process.region.entries = none)
    (same : process.host = process.original) : process.Tracked := by
  rw [Tracked, fhUnmmapRegion_of_empty empty]
  exact same

theorem mapEscapePage_tracked {outcome : RegionOutcome} {block : EscapePage}
    (whole : outcome.AllOrNothing escapePages) (tracked : process.Tracked)
    (empty : process.region.entries = none) :
    (mapEscapePage env peditInit outcome block process).2.Tracked ∧
      ((mapEscapePage env peditInit outcome block process).1 ≠ some 0 →
        (mapEscapePage env peditInit outcome block process).2.region.entries = none) := by
  have same : (process.populate block).host = (process.populate block).original := by
    simp only [Process.populate, tracked.host_eq empty]
  rw [mapEscapePage]
  split
  · exact ⟨Process.tracked_of_eq empty same, fun _ => empty⟩
  · rcases result_eq : mmapEscapePage env outcome block (process.populate block)
      with ⟨regionRet, region, host⟩
    simp only [Process.mmapRegion]
    by_cases success : regionRet = 0
    · rw [success] at result_eq
      have inverse := fhUnmmapRegion_fhMmapRegion block.nonnull result_eq
      refine ⟨?_, fun failed => absurd (congrArg some success) failed⟩
      rw [Process.Tracked, inverse]
      exact same
    · rcases fhMmapRegion_failed whole result_eq success with ⟨region_eq, host_eq⟩
      refine ⟨?_, fun _ => ?_⟩
      · apply Process.tracked_of_eq
        · rw [region_eq]
          exact empty
        · rw [host_eq]
          exact same
      · rw [region_eq]
        exact empty

/-- The condition under which the fallback loses nothing: once `map_memory_from_file` has mapped
the region, the array can be set up and the mapping file can be read. A region is only mapped for a
target that was found, and with PTEditor loaded. -/
def MainEnv.KeepsRegion (env : MainEnv) : Prop :=
  env.pid ≠ 0 → env.pteditInit = true →
  ∀ range memFd block, env.statFile = some range → env.memFd = some memFd →
    env.fileEscapePage = some block → env.fileRegion.Succeeds escapePages →
    ∀ settings, readSettings env.files.settings env.line (targetCtx env range memFd) =
        (0, settings) → settings.targetPid = env.pid →
      ∃ ctx, initAddrMap env.fileMmap settings settings.addrMapPfnMin settings.addrMapPfnMax =
          (0, ctx) ∧ (readMappings env.files.mapping env.keyVal ctx).1 = 0

theorem mapEscapePage_succeeded {outcome : RegionOutcome} {block : EscapePage}
    (whole : outcome.AllOrNothing escapePages)
    (success : (mapEscapePage env peditInit outcome block process).1 = some 0) :
    peditInit = true ∧ outcome.Succeeds escapePages := by
  rw [mapEscapePage] at success
  split at success
  · cases success
  · rename_i loaded
    exact ⟨by simpa using loaded,
      fhMmapRegion_succeeded whole (by decide) (Option.some.inj success)⟩

theorem mapEscapePage_redirects {outcome : RegionOutcome}
    (succeeds : outcome.Succeeds escapePages) (block : EscapePage)
    (process : Process) :
    (mapEscapePage env true outcome block process).1 = some 0 ∧
      (mapEscapePage env true outcome block process).2.host (block.address / pageSize) =
        redirectedPte env.targetTable (block.populate process.host)
          (process.ctx.escapeVaddr.toNat / pageSize * pageSize) block.address ∧
      (mapEscapePage env true outcome block process).2.original =
        block.populate process.original := by
  have redirects := @fhMmapRegion_redirects outcome env.targetTable process.ctx.escapeVaddr.toNat
    block.address escapePageSize succeeds (by decide) process.region
    (block.populate process.host)
  exact ⟨congrArg some redirects.1, redirects.2, rfl⟩

/-- Once the region is mapped, `map_memory_from_file` restores the saved context. -/
theorem mapMemoryFromFile_restores {block : EscapePage}
    (block_eq : env.fileEscapePage = some block)
    (succeeds : env.fileRegion.Succeeds escapePages) :
    (mapMemoryFromFile env true process).1 =
        some (restore env.files env.line env.keyVal env.fileMmap env.pid process.ctx).1 ∧
      (mapMemoryFromFile env true process).2.ctx =
        (restore env.files env.line env.keyVal env.fileMmap env.pid process.ctx).2 := by
  have mapped : ∀ process, (mapEscapePage env true env.fileRegion block process).1 = some 0 :=
    fun process => (mapEscapePage_redirects succeeds block process).1
  rcases read : readSettings env.files.settings env.line process.ctx with ⟨ret, settings⟩
  by_cases readOk : ret = 0
  · subst readOk
    by_cases samePid : settings.targetPid = env.pid
    · rcases init : initAddrMap env.fileMmap settings settings.addrMapPfnMin
        settings.addrMapPfnMax with ⟨initRet, ctx⟩
      by_cases initOk : initRet = 0
      · subst initOk
        simp [mapMemoryFromFile, restore, read, samePid, block_eq, mapped, init]
      · simp [mapMemoryFromFile, restore, read, samePid, block_eq, mapped, init, initOk]
    · simp [mapMemoryFromFile, restore, read, samePid]
  · simp [mapMemoryFromFile, restore, read, readOk]

theorem mapMemoryFromFile_tracked (whole : env.fileRegion.AllOrNothing escapePages)
    (keeps : env.KeepsRegion) (pid : env.pid ≠ 0) (loaded : peditInit = env.pteditInit)
    {range : UInt64 × UInt64} {memFd : Int32} (statFile : env.statFile = some range)
    (memFd_eq : env.memFd = some memFd) (ctx_eq : process.ctx = targetCtx env range memFd)
    (tracked : process.Tracked) (empty : process.region.entries = none) :
    (mapMemoryFromFile env peditInit process).2.Tracked ∧
      ((mapMemoryFromFile env peditInit process).1 ≠ some 0 →
        (mapMemoryFromFile env peditInit process).2.region.entries = none) := by
  simp only [mapMemoryFromFile]
  split
  · exact ⟨tracked, fun _ => empty⟩
  split
  · exact ⟨tracked, fun _ => empty⟩
  rename_i settingsOk samePid
  rw [ne_eq, not_not] at settingsOk samePid
  split
  · exact ⟨tracked, fun _ => empty⟩
  rename_i block block_eq
  have mapped := @mapEscapePage_tracked env peditInit
    { process with ctx := (readSettings env.files.settings env.line process.ctx).2 }
    env.fileRegion block whole tracked empty
  split
  · exact mapped
  rename_i success
  rw [ne_eq, not_not] at success
  -- the region is mapped now, so that the rest must succeed
  rcases mapEscapePage_succeeded whole success with ⟨isLoaded, outcome⟩
  rw [ctx_eq] at settingsOk samePid ⊢
  rcases keeps pid (loaded ▸ isLoaded) range memFd block statFile memFd_eq block_eq outcome _
    (Prod.ext settingsOk rfl) samePid with ⟨ctx, initialised, restored⟩
  rw [initialised, if_neg (not_not.mpr rfl)]
  rw [ctx_eq] at mapped
  refine ⟨mapped.1, fun failed => ?_⟩
  exact absurd (congrArg some restored) failed

theorem mapMemoryFvpBoot_tracked (whole : env.bootRegion.AllOrNothing escapePages)
    (found : UInt64 × UInt64) (tracked : process.Tracked)
    (empty : process.region.entries = none) :
    (mapMemoryFvpBoot env peditInit found process).2.Tracked := by
  simp only [mapMemoryFvpBoot]
  split
  · exact tracked
  rename_i block block_eq
  have mapped := @mapEscapePage_tracked env peditInit
    { process with
      ctx := { process.ctx with escapePagePfn := found.2, escapeVaddr := found.1 } }
    env.bootRegion block whole tracked empty
  split
  · exact mapped.1
  · exact mapped.1

theorem unmapFvpMemory_restores (tracked : process.Tracked) :
    (unmapFvpMemory process).host = process.original ∧
      (unmapFvpMemory process).region.entries = none :=
  ⟨tracked, fhUnmmapRegion_empty _ _⟩

theorem unmapFvpMemory_tracked (tracked : process.Tracked) : (unmapFvpMemory process).Tracked := by
  have restored := unmapFvpMemory_restores tracked
  exact Process.tracked_of_eq restored.2 restored.1

end

/-! ## Every run -/

def MainPc.mayHold : MainPc → Bool
  | .saveSettings | .verifyMappings | .doInit | .enableTrace | .joinListener | .hexDump
  | .unmapFvpMemory => true
  | _ => false

def MainPc.guarded : MainPc → Bool
  | .getPid | .fhInit | .cleanUpHook | .ended => false
  | _ => true

/-- The invariant of `main`: what is redirected can be reached from the clean-up hook. -/
structure MainInv (env : MainEnv) (state : MainState) : Prop where
  tracked : state.process.Tracked
  released : state.pc.mayHold = false → state.process.region.entries = none
  handlers : state.pc = .cleanUpHook ∨ state.pc.guarded = true → state.handlers = true
  hook : state.pc.guarded = true → state.hook = true
  statFile : state.pc = .openMemFd → ∃ range, env.statFile = some range
  ctx : state.pc = .mapMemoryFromFile → ∃ range memFd, env.statFile = some range ∧
    env.memFd = some memFd ∧ state.process.ctx = targetCtx env range memFd

/-- What the first statements of `main` have established. -/
structure MainInited (env : MainEnv) (state : MainState) : Prop where
  pid : state.pc ≠ .getPid → state.pc ≠ .ended → env.pid ≠ 0
  loaded : state.pc ≠ .getPid → state.pc ≠ .fhInit → state.pc ≠ .ended →
    state.peditInit = env.pteditInit

section

variable {env : MainEnv} {state : MainState}

theorem mainStart_inited (host : PageTable) : MainInited env (mainStart host) :=
  ⟨fun notStart => absurd rfl notStart, fun notStart => absurd rfl notStart⟩

theorem MainInited.of_ended (pc_eq : state.pc = .ended) : MainInited env state :=
  ⟨fun _ notEnded => absurd pc_eq notEnded, fun _ _ notEnded => absurd pc_eq notEnded⟩

theorem MainInited.goto (inited : MainInited env state) (notStart : state.pc ≠ .getPid)
    (notInit : state.pc ≠ .fhInit) (notEnded : state.pc ≠ .ended) {state' : MainState}
    (same : state'.peditInit = state.peditInit) : MainInited env state' :=
  ⟨fun _ _ => inited.pid notStart notEnded,
    fun _ _ _ => same.trans (inited.loaded notStart notInit notEnded)⟩

theorem fhCrashHandler_pc (state : MainState) : (fhCrashHandler state).pc = .ended := by
  rw [fhCrashHandler]
  split <;> rfl

theorem mainStep_inited (inited : MainInited env state) : MainInited env (mainStep env state) := by
  have goto := @inited.goto
  cases pc_eq : state.pc
  all_goals
    rw [pc_eq] at goto
    simp only [mainStep, pc_eq]
  case getPid =>
    split
    · exact .of_ended rfl
    · rename_i found
      exact ⟨fun _ _ => found, fun _ notInit => absurd rfl notInit⟩
  case fhInit =>
    exact ⟨fun _ _ => inited.pid (by simp [pc_eq]) (by simp [pc_eq]), fun _ _ _ => rfl⟩
  case openMemFd => split <;> exact goto (by simp) (by simp) (by simp) rfl
  case mapMemoryFromFile =>
    split
    · exact .of_ended (fhCrashHandler_pc _)
    · exact goto (by simp) (by simp) (by simp) rfl
  case mapMemoryFvpBoot =>
    split
    · exact inited
    · split
      · exact .of_ended (fhCrashHandler_pc _)
      · exact goto (by simp) (by simp) (by simp) rfl
  case fhCleanUp => exact .of_ended rfl
  case ended => exact inited
  all_goals exact goto (by simp) (by simp) (by simp) rfl

theorem mainStart_inv (host : PageTable) : MainInv env (mainStart host) where
  tracked := rfl
  released _ := rfl
  handlers := by rintro (contra | contra) <;> cases contra
  hook contra := by cases contra
  statFile contra := by cases contra
  ctx contra := by cases contra

theorem MainInv.of_ended (pc_eq : state.pc = .ended) (tracked : state.process.Tracked)
    (released : state.process.region.entries = none) : MainInv env state where
  tracked := tracked
  released _ := released
  handlers := by rw [pc_eq]; rintro (contra | contra) <;> cases contra
  hook := by rw [pc_eq]; intro contra; cases contra
  statFile := by rw [pc_eq]; intro contra; cases contra
  ctx := by rw [pc_eq]; intro contra; cases contra

theorem MainInv.of_guarded (handlers : state.handlers = true) (hook : state.hook = true)
    (notOpen : state.pc ≠ .openMemFd) (notFile : state.pc ≠ .mapMemoryFromFile)
    (tracked : state.process.Tracked)
    (released : state.pc.mayHold = false → state.process.region.entries = none) :
    MainInv env state where
  tracked := tracked
  released := released
  handlers _ := handlers
  hook _ := hook
  statFile pc_eq := absurd pc_eq notOpen
  ctx pc_eq := absurd pc_eq notFile

theorem fhCrashHandler_restores (tracked : state.process.Tracked)
    (guarded : ¬(state.handlers && state.hook) = true → state.process.region.entries = none) :
    (fhCrashHandler state).process.Tracked ∧
      (fhCrashHandler state).process.region.entries = none := by
  rw [fhCrashHandler]
  split
  · exact ⟨unmapFvpMemory_tracked tracked, (unmapFvpMemory_restores tracked).2⟩
  · rename_i unguarded
    exact ⟨tracked, guarded unguarded⟩

theorem MainInv.unguarded (inv : MainInv env state)
    (unguarded : ¬(state.handlers && state.hook) = true) :
    state.process.region.entries = none := by
  apply inv.released
  cases guarded : state.pc.guarded with
  | true => simp [inv.handlers (.inr guarded), inv.hook guarded] at unguarded
  | false =>
      revert guarded
      cases state.pc <;> decide

theorem fhCrashHandler_inv (tracked : state.process.Tracked)
    (handlers : state.handlers = true) (hook : state.hook = true) :
    MainInv env (fhCrashHandler state) := by
  have restored := fhCrashHandler_restores tracked (by simp [handlers, hook])
  exact .of_ended (fhCrashHandler_pc state) restored.1 restored.2

theorem MainInv.installed (inv : MainInv env state) (guarded : state.pc.guarded = true) :
    state.handlers = true ∧ state.hook = true :=
  ⟨inv.handlers (.inr guarded), inv.hook guarded⟩

/-- A statement that leaves the region alone. -/
theorem MainInv.goto (inv : MainInv env state) (guarded : state.pc.guarded = true) {pc : MainPc}
    (notOpen : pc ≠ .openMemFd) (notFile : pc ≠ .mapMemoryFromFile)
    (released : pc.mayHold = false → state.pc.mayHold = false) :
    MainInv env { state with pc := pc } := by
  rcases inv.installed guarded with ⟨handlers, hook⟩
  exact .of_guarded handlers hook notOpen notFile inv.tracked
    fun notHeld => inv.released (released notHeld)

theorem mainStep_inv_of_openMemFd (inv : MainInv env state) (pc_eq : state.pc = .openMemFd) :
    MainInv env (mainStep env state) := by
  have guarded : state.pc.guarded = true := by rw [pc_eq]; rfl
  have notHeld : state.pc.mayHold = false := by rw [pc_eq]; rfl
  rcases inv.installed guarded with ⟨handlers, hook⟩
  rcases inv.statFile pc_eq with ⟨range, range_eq⟩
  simp only [mainStep, pc_eq]
  split
  · exact inv.goto guarded (by decide) (by decide) fun _ => notHeld
  · rename_i memFd memFd_eq
    refine ⟨inv.tracked, fun _ => inv.released notHeld, fun _ => handlers, fun _ => hook, by simp,
      fun _ => ⟨range, memFd, range_eq, memFd_eq, ?_⟩⟩
    rw [range_eq, Option.getD_some]

theorem mainStep_inv_of_mapMemoryFromFile (whole : env.fileRegion.AllOrNothing escapePages)
    (keeps : env.KeepsRegion) (inited : MainInited env state) (inv : MainInv env state)
    (pc_eq : state.pc = .mapMemoryFromFile) : MainInv env (mainStep env state) := by
  have guarded : state.pc.guarded = true := by rw [pc_eq]; rfl
  have notHeld : state.pc.mayHold = false := by rw [pc_eq]; rfl
  rcases inv.installed guarded with ⟨handlers, hook⟩
  rcases inv.ctx pc_eq with ⟨range, memFd, range_eq, memFd_eq, ctx_eq⟩
  have pid := inited.pid (by simp [pc_eq]) (by simp [pc_eq])
  have loaded := inited.loaded (by simp [pc_eq]) (by simp [pc_eq]) (by simp [pc_eq])
  have mapped := mapMemoryFromFile_tracked whole keeps pid loaded range_eq memFd_eq ctx_eq
    inv.tracked (inv.released notHeld)
  simp only [mainStep, pc_eq]
  split
  · exact fhCrashHandler_inv mapped.1 handlers hook
  · rename_i ret ret_eq
    split
    · rename_i failed
      refine .of_guarded handlers hook (by simp) (by simp) mapped.1 fun _ => ?_
      apply mapped.2
      rw [ret_eq]
      intro success
      exact failed (Option.some.inj success)
    · exact .of_guarded handlers hook (by simp) (by simp) mapped.1 (by simp [MainPc.mayHold])

theorem mainStep_inv_of_mapMemoryFvpBoot (whole : env.bootRegion.AllOrNothing escapePages)
    (inv : MainInv env state) (pc_eq : state.pc = .mapMemoryFvpBoot) :
    MainInv env (mainStep env state) := by
  have guarded : state.pc.guarded = true := by rw [pc_eq]; rfl
  have notHeld : state.pc.mayHold = false := by rw [pc_eq]; rfl
  rcases inv.installed guarded with ⟨handlers, hook⟩
  simp only [mainStep, pc_eq]
  split
  · exact inv
  · rename_i found found_eq
    have mapped := @mapMemoryFvpBoot_tracked env state.peditInit state.process whole found
      inv.tracked (inv.released notHeld)
    split
    · exact fhCrashHandler_inv mapped handlers hook
    · split <;>
        exact .of_guarded handlers hook (by simp) (by simp) mapped (by simp [MainPc.mayHold])

theorem mainStep_inv_of_resetCtx (inv : MainInv env state) (pc_eq : state.pc = .resetCtx) :
    MainInv env (mainStep env state) := by
  have guarded : state.pc.guarded = true := by rw [pc_eq]; rfl
  have notHeld : state.pc.mayHold = false := by rw [pc_eq]; rfl
  rcases inv.installed guarded with ⟨handlers, hook⟩
  have same := inv.tracked.host_eq (inv.released notHeld)
  simp only [mainStep, pc_eq]
  exact .of_guarded handlers hook (by simp) (by simp) (Process.tracked_of_eq rfl same) fun _ => rfl

theorem mainStep_inv_of_unmapFvpMemory (inv : MainInv env state)
    (pc_eq : state.pc = .unmapFvpMemory) : MainInv env (mainStep env state) := by
  have guarded : state.pc.guarded = true := by rw [pc_eq]; rfl
  rcases inv.installed guarded with ⟨handlers, hook⟩
  have restored := unmapFvpMemory_restores inv.tracked
  simp only [mainStep, pc_eq]
  exact .of_guarded handlers hook (by simp) (by simp) (unmapFvpMemory_tracked inv.tracked)
    fun _ => restored.2

theorem mainStep_inv (fileWhole : env.fileRegion.AllOrNothing escapePages)
    (bootWhole : env.bootRegion.AllOrNothing escapePages) (keeps : env.KeepsRegion)
    (inited : MainInited env state) (inv : MainInv env state) :
    MainInv env (mainStep env state) := by
  have released := inv.released
  have installed := inv.installed
  have goto := @inv.goto
  cases pc_eq : state.pc
  case openMemFd => exact mainStep_inv_of_openMemFd inv pc_eq
  case mapMemoryFromFile => exact mainStep_inv_of_mapMemoryFromFile fileWhole keeps inited inv pc_eq
  case resetCtx => exact mainStep_inv_of_resetCtx inv pc_eq
  case mapMemoryFvpBoot => exact mainStep_inv_of_mapMemoryFvpBoot bootWhole inv pc_eq
  case unmapFvpMemory => exact mainStep_inv_of_unmapFvpMemory inv pc_eq
  all_goals
    rw [pc_eq] at released installed goto
    simp only [mainStep, pc_eq]
  case getPid =>
    split
    · exact .of_ended rfl inv.tracked (released rfl)
    · exact ⟨inv.tracked, fun _ => released rfl, by simp [MainPc.guarded],
        by simp [MainPc.guarded], by simp, by simp⟩
  case fhInit =>
    exact ⟨inv.tracked, fun _ => released rfl, fun _ => rfl, by simp [MainPc.guarded], by simp,
      by simp⟩
  case cleanUpHook =>
    have handlers : state.handlers = true := inv.handlers (.inl pc_eq)
    exact .of_guarded handlers rfl (by simp) (by simp) inv.tracked fun _ => released rfl
  case readStatFile =>
    split
    · exact .of_ended rfl inv.tracked (released rfl)
    · rename_i present
      rcases installed rfl with ⟨handlers, hook⟩
      exact ⟨inv.tracked, fun _ => released rfl, fun _ => handlers, fun _ => hook,
        fun _ => Option.ne_none_iff_exists'.mp present, by simp⟩
  case fhCleanUp => exact .of_ended rfl inv.tracked (released rfl)
  case hexDump => exact inv
  case ended => exact inv
  case saveSettings => exact goto rfl (by simp) (by simp) (by decide)
  case verifyMappings => split <;> exact goto rfl (by simp) (by simp) (by decide)
  case doInit => split <;> exact goto rfl (by simp) (by simp) (by decide)
  case enableTrace => split <;> exact goto rfl (by simp) (by simp) (by decide)
  case joinListener => exact goto rfl (by simp) (by simp) (by decide)
  case disableTrace => exact goto rfl (by simp) (by simp) (by decide)

theorem mainRun_inited (host : PageTable) (steps : ℕ) :
    MainInited env (mainRun env host steps) := by
  induction steps with
  | zero => exact mainStart_inited host
  | succ steps ih =>
      rw [mainRun, Function.iterate_succ_apply']
      exact mainStep_inited ih

theorem mainRun_inv (fileWhole : env.fileRegion.AllOrNothing escapePages)
    (bootWhole : env.bootRegion.AllOrNothing escapePages) (keeps : env.KeepsRegion)
    (host : PageTable) (steps : ℕ) : MainInv env (mainRun env host steps) := by
  induction steps with
  | zero => exact mainStart_inv host
  | succ steps ih =>
      rw [mainRun, Function.iterate_succ_apply']
      exact mainStep_inv fileWhole bootWhole keeps (mainRun_inited host steps) ih

/-- The page table has its original entries if the process ends here, by itself or by the crash
handler. -/
def MainState.Restored (state : MainState) : Prop :=
  (state.pc = .ended → state.process.host = state.process.original) ∧
    (fhCrashHandler state).process.host = (fhCrashHandler state).process.original

theorem MainInv.restored (inv : MainInv env state) : state.Restored := by
  refine ⟨fun pc_eq => ?_, ?_⟩
  · apply inv.tracked.host_eq
    apply inv.released
    rw [pc_eq]
    rfl
  · have crashed := fhCrashHandler_restores inv.tracked inv.unguarded
    exact crashed.1.host_eq crashed.2

/--
Where `fh_mmap_region` maps all or nothing, and the fallback never follows a mapped
region, no redirected entry outlives the process: neither at its end, nor when the
crash handler runs between any two statements.
-/
theorem main_restores_pageTable (fileWhole : env.fileRegion.AllOrNothing escapePages)
    (bootWhole : env.bootRegion.AllOrNothing escapePages) (keeps : env.KeepsRegion)
    (host : PageTable) (steps : ℕ) : (mainRun env host steps).Restored :=
  (mainRun_inv fileWhole bootWhole keeps host steps).restored

end

/-! ## The fallback after a failure -/

/-- A restart of the manager with the files of an earlier boot scan. -/
def restarted (mmap : Option (ℕ → UInt64)) : MainEnv where
  pid := 7
  pteditInit := true
  hookOpen := true
  statFile := some (0x1000, 0x3000)
  memFd := some 3
  files := (saveSettings ⟨true, true⟩ 0 ⟨none, none⟩
    (bootScan (some fun _ => 0) .twoTagged twoTagged).2).2
  line := []
  keyVal := (0, 0)
  fileEscapePage := some ⟨0x10000, by decide, fun _ => 0x9000⟩
  fileRegion := ⟨true, fun _ => true⟩
  fileMmap := mmap
  bootEscapePage := none
  bootRegion := ⟨true, fun _ => true⟩
  bootMmap := none
  target := twoTagged
  targetTable := fun _ => 0x5000
  reserveSize := 0
  doInit := 0
  enableTrace := 0

theorem restarted_keepsRegion : (restarted (some fun _ => 0)).KeepsRegion := by
  intro _ _ range memFd block statFile memFd_eq block_eq _ settings read samePid
  cases statFile
  cases memFd_eq
  have settings_eq := readSettings_settingsText 0 []
    (bootScan (some fun _ => 0) .twoTagged twoTagged).2
    (targetCtx (restarted (some fun _ => 0)) (0x1000, 0x3000) 3)
  have same : settings = _ := (Prod.mk.inj (read.symm.trans settings_eq)).2
  subst same
  refine ⟨_, rfl, ?_⟩
  decide +kernel

theorem main_restores_pageTable_restarted :
    (restarted (some fun _ => 0)).fileRegion.AllOrNothing escapePages ∧
      (restarted (some fun _ => 0)).bootRegion.AllOrNothing escapePages ∧
      (restarted (some fun _ => 0)).KeepsRegion ∧
      (mainRun (restarted (some fun _ => 0)) (fun _ => 0) 12).Restored := by
  have whole : RegionOutcome.AllOrNothing ⟨true, fun _ => true⟩ escapePages :=
    .inl ⟨rfl, fun _ _ => rfl⟩
  exact ⟨whole, whole, restarted_keepsRegion,
    main_restores_pageTable whole whole restarted_keepsRegion (fun _ => 0) 12⟩

theorem mapMemoryFromFile_of_noArray {env : MainEnv} {peditInit : Bool} {process : Process}
    {settings : CtxStruct} {block : EscapePage}
    (read : readSettings env.files.settings env.line process.ctx = (0, settings))
    (samePid : settings.targetPid = env.pid) (block_eq : env.fileEscapePage = some block)
    (noArray : env.fileMmap = none)
    (mapped : (mapEscapePage env peditInit env.fileRegion block
      { process with ctx := settings }).1 = some 0) :
    mapMemoryFromFile env peditInit process =
      (some (-1), { (mapEscapePage env peditInit env.fileRegion block
        { process with ctx := settings }).2 with ctx := settings }) := by
  simp [mapMemoryFromFile, read, samePid, block_eq, mapped, noArray, initAddrMap]

theorem fhCrashHandler_of_empty {state : MainState}
    (empty : state.process.region.entries = none) :
    (fhCrashHandler state).process.host = state.process.host ∧
      (fhCrashHandler state).process.original = state.process.original := by
  unfold fhCrashHandler
  by_cases guarded : (state.handlers && state.hook) = true
  · rw [if_pos guarded]
    exact ⟨congrArg Prod.snd (fhUnmmapRegion_of_empty empty _), rfl⟩
  · rw [if_neg guarded]
    exact ⟨rfl, rfl⟩

theorem fhCrashHandler_of_fallback {env : MainEnv} {state : MainState} {ret : ℤ}
    {process : Process} (pc_eq : state.pc = .mapMemoryFromFile)
    (result : mapMemoryFromFile env state.peditInit state.process = (some ret, process))
    (failed : ret ≠ 0) :
    (fhCrashHandler (mainStep env (mainStep env state))).process.host = process.host ∧
      (fhCrashHandler (mainStep env (mainStep env state))).process.original =
        process.original := by
  have step : mainStep env state = { state with pc := .resetCtx, process := process } := by
    simp only [mainStep, pc_eq, result, if_pos failed]
  rw [step]
  exact fhCrashHandler_of_empty rfl

/-- When the array cannot be mapped, the fallback forgets the region: the entry of its first page
keeps the frame of the target. -/
theorem fhCrashHandler_leaks {env : MainEnv} {state : MainState} {settings : CtxStruct}
    {block : EscapePage} (pc_eq : state.pc = .mapMemoryFromFile) (init : state.peditInit = true)
    (read : readSettings env.files.settings env.line state.process.ctx = (0, settings))
    (samePid : settings.targetPid = env.pid) (block_eq : env.fileEscapePage = some block)
    (succeeds : env.fileRegion.Succeeds escapePages) (noArray : env.fileMmap = none) :
    (fhCrashHandler (mainStep env (mainStep env state))).process.host (block.address / pageSize) =
        redirectedPte env.targetTable (block.populate state.process.host)
          (settings.escapeVaddr.toNat / pageSize * pageSize) block.address ∧
      (fhCrashHandler (mainStep env (mainStep env state))).process.original =
        block.populate state.process.original := by
  have mapped := @mapEscapePage_redirects env env.fileRegion succeeds block
    { state.process with ctx := settings }
  have result := mapMemoryFromFile_of_noArray read samePid block_eq noArray mapped.1
  rw [← init] at result
  have crash := fhCrashHandler_of_fallback pc_eq result (by decide)
  rw [crash.1, crash.2, init]
  exact mapped.2

/-- A `SIGINT` after the fallback has reset the context leaves the entries redirected. -/
theorem main_leaks_redirected_ptes :
    ¬∀ (env : MainEnv) (host : PageTable) (steps : ℕ), env.fileRegion.AllOrNothing escapePages →
      env.bootRegion.AllOrNothing escapePages → (mainRun env host steps).Restored := by
  intro claim
  have whole : RegionOutcome.AllOrNothing ⟨true, fun _ => true⟩ escapePages :=
    .inl ⟨rfl, fun _ _ => rfl⟩
  have restored := (claim (restarted none) (fun _ => 0) 7 whole whole).2
  have run : mainRun (restarted none) (fun _ => 0) 7 =
      mainStep (restarted none) (mainStep (restarted none)
        (mainRun (restarted none) (fun _ => 0) 5)) := by
    simp only [mainRun, Function.iterate_succ_apply']
  have read := readSettings_settingsText 0 [] (bootScan (some fun _ => 0) .twoTagged twoTagged).2
    (mainRun (restarted none) (fun _ => 0) 5).process.ctx
  have leak := @fhCrashHandler_leaks (restarted none) _ _ ⟨0x10000, by decide, fun _ => 0x9000⟩
    rfl rfl read rfl rfl ⟨rfl, fun _ _ => rfl⟩ rfl
  rw [← run, restored] at leak
  have first := (congrFun leak.2 _).symm.trans leak.1
  exact absurd first (by decide)

end Acai
