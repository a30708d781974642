import Acai.Escape.Layout

/-!
# The manager context and its address map

The user-space manager keeps one context (`struct ctx_struct`). Its core is an
array that maps guest page frame numbers to virtual addresses of the target
process. This file models the context, the accesses to the map, and the two
passes of the boot scan that fill it (`usr_manager.c`).

The array is a function on indices: it stands for the words of the manager's
memory from the start of the mapping on. `mmap` hands out whole zeroed pages, so
that the words up to the end of the last page are zero; what lies behind them is
whatever the process has there. The lookup and the store accept the page frame
number `addr_map_pfn_max`, whose index is the first one that the mapping was not
sized for.
-/

namespace Acai

/-- The context of the manager (`struct ctx_struct`), without its mapped escape page. -/
structure CtxStruct where
  targetMemFd : Int32
  targetPid : Int32
  targetFrom : UInt64
  targetTo : UInt64
  escapePagePfn : UInt64
  escapeVaddr : UInt64
  escapePageReserveSize : UInt64
  addrMap : ℕ → UInt64
  addrMapPfnMin : UInt64
  addrMapPfnMax : UInt64
  addrMapSize : UInt64
  checksumVaddrs : UInt64

namespace CtxStruct

def zero : CtxStruct where
  targetMemFd := 0
  targetPid := 0
  targetFrom := 0
  targetTo := 0
  escapePagePfn := 0
  escapeVaddr := 0
  escapePageReserveSize := 0
  addrMap := fun _ => 0
  addrMapPfnMin := 0
  addrMapPfnMax := 0
  addrMapSize := 0
  checksumVaddrs := 0

end CtxStruct

/-- Words in the pages that `mmap` hands out for an array of `size` bytes. -/
def mappedWords (size : UInt64) : ℕ := (size.toNat + pageSize - 1) / pageSize * (pageSize / 8)

/--
`init_addr_map`. `mmap` is the outcome of the system call: `none` when it fails,
and otherwise the words that lie behind the pages it hands out. An empty mapping
is refused by the kernel.
-/
def initAddrMap (mmap : Option (ℕ → UInt64)) (ctx : CtxStruct) (minPfn maxPfn : UInt64) :
    ℤ × CtxStruct :=
  let mapSize := 8 * (maxPfn - minPfn)
  match mmap with
  | none => (-1, ctx)
  | some behind =>
      if mapSize = 0 then (-1, ctx)
      else
        (0, { ctx with
          addrMap := fun index => if index < mappedWords mapSize then 0 else behind index
          addrMapPfnMax := maxPfn
          addrMapPfnMin := minPfn
          addrMapSize := mapSize })

theorem initAddrMap_ok {mmap : Option (ℕ → UInt64)} {ctx ctx' : CtxStruct} {minPfn maxPfn : UInt64}
    (success : initAddrMap mmap ctx minPfn maxPfn = (0, ctx')) :
    ∃ behind, mmap = some behind ∧ 8 * (maxPfn - minPfn) ≠ 0 ∧
      ctx' = { ctx with
        addrMap := fun index =>
          if index < mappedWords (8 * (maxPfn - minPfn)) then 0 else behind index
        addrMapPfnMax := maxPfn
        addrMapPfnMin := minPfn
        addrMapSize := 8 * (maxPfn - minPfn) } := by
  cases mmap with
  | none => cases success
  | some behind =>
      simp only [initAddrMap] at success
      split at success
      · cases success
      · rename_i nonempty
        cases success
        exact ⟨behind, rfl, nonempty, rfl⟩

/-- `get_addr_map_vaddr_verify`; a page frame number that is out of range has no address. -/
def getAddrMapVaddrVerify (ctx : CtxStruct) (pfn : ℕ) : UInt64 :=
  if ctx.addrMapPfnMin.toNat ≤ pfn ∧ pfn ≤ ctx.addrMapPfnMax.toNat then
    ctx.addrMap (pfn - ctx.addrMapPfnMin.toNat)
  else 0

def getAddrMapVaddr (ctx : CtxStruct) (pfn : ℕ) : UInt64 := getAddrMapVaddrVerify ctx pfn

def setAddrMapVaddr (ctx : CtxStruct) (pfn : ℕ) (vaddr : UInt64) : CtxStruct :=
  if ctx.addrMapPfnMin.toNat ≤ pfn ∧ pfn ≤ ctx.addrMapPfnMax.toNat then
    { ctx with addrMap := Function.update ctx.addrMap (pfn - ctx.addrMapPfnMin.toNat) vaddr }
  else ctx

namespace CtxStruct

/-- The page frame numbers from `addr_map_pfn_min` up to, not including, `addr_map_pfn_max`. -/
def pfns (ctx : CtxStruct) : List ℕ :=
  List.range' ctx.addrMapPfnMin.toNat (ctx.addrMapPfnMax.toNat - ctx.addrMapPfnMin.toNat)

end CtxStruct

@[simp]
theorem setAddrMapVaddr_pfnMin (ctx : CtxStruct) (pfn : ℕ) (vaddr : UInt64) :
    (setAddrMapVaddr ctx pfn vaddr).addrMapPfnMin = ctx.addrMapPfnMin := by
  unfold setAddrMapVaddr
  split <;> rfl

@[simp]
theorem setAddrMapVaddr_pfnMax (ctx : CtxStruct) (pfn : ℕ) (vaddr : UInt64) :
    (setAddrMapVaddr ctx pfn vaddr).addrMapPfnMax = ctx.addrMapPfnMax := by
  unfold setAddrMapVaddr
  split <;> rfl

theorem getAddrMapVaddrVerify_setAddrMapVaddr (ctx : CtxStruct) (pfn pfn' : ℕ) (vaddr : UInt64) :
    getAddrMapVaddrVerify (setAddrMapVaddr ctx pfn vaddr) pfn' =
      if pfn' = pfn ∧ ctx.addrMapPfnMin.toNat ≤ pfn ∧ pfn ≤ ctx.addrMapPfnMax.toNat then vaddr
      else getAddrMapVaddrVerify ctx pfn' := by
  by_cases inRange : ctx.addrMapPfnMin.toNat ≤ pfn ∧ pfn ≤ ctx.addrMapPfnMax.toNat
  · simp only [setAddrMapVaddr, inRange, and_self, ↓reduceIte, and_true]
    by_cases same : pfn' = pfn
    · subst same
      simp [getAddrMapVaddrVerify, inRange]
    · simp only [getAddrMapVaddrVerify, same, ↓reduceIte]
      split
      · rw [Function.update_of_ne (by omega)]
      · rfl
  · rw [if_neg (fun contradiction => inRange contradiction.2)]
    simp [setAddrMapVaddr, inRange]

/-! ## The boot scan -/

/-- The words that the scan reads from a page of the target (`fvp_escape_scan_struct`). -/
structure ScanStruct where
  ctrlMagic : UInt64
  addrTag : UInt64
  escapeMagic : UInt64

def fvpControlMagic : UInt64 := 0xCAFECAFECAFECA00

/-- The target's memory at page granularity; `none` where it cannot be read. -/
abbrev Target := ℕ → Option ScanStruct

def CtxStruct.scanned (ctx : CtxStruct) : List ℕ :=
  (List.range ((ctx.targetTo.toNat - ctx.targetFrom.toNat + pageSize - 1) / pageSize)).map
    fun index => ctx.targetFrom.toNat + pageSize * index

def Target.tagAt (target : Target) (addr : ℕ) : Option UInt64 :=
  match target addr with
  | none => none
  | some escape => if escape.ctrlMagic = fvpControlMagic then some escape.addrTag else none

def findDimensionsStep (target : Target) (dims : UInt64 × UInt64) (addr : ℕ) : UInt64 × UInt64 :=
  match target.tagAt addr with
  | none => dims
  | some tag =>
      (if dims.1 < tag then dims.1 else tag, if dims.2 > tag then dims.2 else tag)

def fvpmemFindDimensions (ctx : CtxStruct) (target : Target) : UInt64 × UInt64 :=
  ctx.scanned.foldl (findDimensionsStep target) (0x7FFFFFFFFFFFFFFF, 0)

def scanAddressesStep (target : Target) (ctx : CtxStruct) (addr : ℕ) : CtxStruct :=
  match target.tagAt addr with
  | none => ctx
  | some tag => setAddrMapVaddr ctx tag.toNat (UInt64.ofNat addr)

def fvpmemScanAddresses (ctx : CtxStruct) (target : Target) : CtxStruct :=
  ctx.scanned.foldl (scanAddressesStep target) ctx

/-- The part of `map_memory_fvp_boot` that fills the address map. -/
def bootScan (mmap : Option (ℕ → UInt64)) (ctx : CtxStruct) (target : Target) : ℤ × CtxStruct :=
  let dims := fvpmemFindDimensions ctx target
  let ctx' := { ctx with addrMapPfnMin := dims.1, addrMapPfnMax := dims.2 }
  match initAddrMap mmap ctx' dims.1 dims.2 with
  | (0, filled) => (0, fvpmemScanAddresses filled target)
  | failed => failed

theorem bootScan_ok {mmap : Option (ℕ → UInt64)} {start ctx : CtxStruct} {target : Target}
    (success : bootScan mmap start target = (0, ctx)) :
    ∃ filled,
      initAddrMap mmap
        { start with
          addrMapPfnMin := (fvpmemFindDimensions start target).1
          addrMapPfnMax := (fvpmemFindDimensions start target).2 }
        (fvpmemFindDimensions start target).1 (fvpmemFindDimensions start target).2 =
          (0, filled) ∧
      ctx = fvpmemScanAddresses filled target := by
  simp only [bootScan] at success
  split at success
  · rename_i filled initialised
    cases success
    exact ⟨filled, initialised, rfl⟩
  · rename_i failed notZero
    exact absurd success (notZero ctx)

end Acai
