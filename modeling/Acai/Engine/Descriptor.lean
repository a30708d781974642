import Acai.Driver.RemoteTransfer

/-!
# Descriptors of the DMA engine

The engine reads its work from descriptors in the memory of the host. A descriptor
names a block of bytes, where it goes to, and the bus address of the next descriptor;
addresses are kept in two words each. The word `control` holds a magic number, the
flags of the descriptor, and the number of descriptors that the engine may read
together with the next one, because they follow it in memory.

The engine reads descriptors that follow one another in one access, which must not go
beyond a block of 64 descriptors (`xdmaGetNextAdj_inBlock`).
-/

namespace Acai

/-! ## Addresses in two words -/

def pciDmaH (addr : UInt64) : UInt32 := (addr >>> 16 >>> 16).toUInt32

def pciDmaL (addr : UInt64) : UInt32 := (addr &&& 0xffffffff).toUInt32

/-- The address that two words hold. -/
def joinWords (hi lo : UInt32) : UInt64 := UInt64.ofNat (hi.toNat * 2 ^ 32 + lo.toNat)

theorem toNat_pciDmaH (addr : UInt64) : (pciDmaH addr).toNat = addr.toNat / 2 ^ 32 := by
  have addr_lt := addr.toNat_lt
  rw [pciDmaH, UInt64.toNat_toUInt32, UInt64.toNat_shiftRight, UInt64.toNat_shiftRight,
    Nat.shiftRight_eq_div_pow, Nat.shiftRight_eq_div_pow]
  change addr.toNat / 2 ^ 16 / 2 ^ 16 % 2 ^ 32 = _
  omega

theorem toNat_pciDmaL (addr : UInt64) : (pciDmaL addr).toNat = addr.toNat % 2 ^ 32 := by
  rw [pciDmaL, UInt64.toNat_toUInt32, UInt64.toNat_and,
    show (0xffffffff : UInt64).toNat = 2 ^ 32 - 1 from rfl, Nat.and_two_pow_sub_one_eq_mod,
    Nat.mod_mod]

@[simp]
theorem joinWords_split (addr : UInt64) : joinWords (pciDmaH addr) (pciDmaL addr) = addr := by
  rw [joinWords, toNat_pciDmaH, toNat_pciDmaL, Nat.div_add_mod', UInt64.ofNat_toNat]

@[simp]
theorem pciDmaL_joinWords (hi lo : UInt32) : pciDmaL (joinWords hi lo) = lo := by
  have hi_lt := hi.toNat_lt
  have lo_lt := lo.toNat_lt
  refine UInt32.toNat_inj.mp ?_
  rw [toNat_pciDmaL, joinWords, UInt64.toNat_ofNat_of_lt' (by simp only [UInt64.size]; omega)]
  omega

/-! ## The descriptor -/

structure XdmaDesc where
  control : UInt32
  /-- The length of the transfer in bytes. -/
  bytes : UInt32
  srcAddrLo : UInt32
  srcAddrHi : UInt32
  dstAddrLo : UInt32
  dstAddrHi : UInt32
  nextLo : UInt32
  nextHi : UInt32
  deriving DecidableEq

def descMagic : UInt32 := 0xAD4B0000

def xdmaDescStopped : UInt32 := 1

def xdmaDescCompleted : UInt32 := 2

def xdmaDescEop : UInt32 := 0x10

/-- `sizeof(struct xdma_desc)` -/
def XdmaDesc.size : ℕ := 32

/-- The descriptor after `memset`. -/
def XdmaDesc.zero : XdmaDesc := ⟨0, 0, 0, 0, 0, 0, 0, 0⟩

def xdmaDescAdjacent (desc : XdmaDesc) (nextAdjacent : UInt32) : XdmaDesc :=
  let control := desc.control &&& 0x0000f0ff
  { desc with control := control ||| ((0xAD4B0000 : UInt32) ||| nextAdjacent <<< 8) }

/-- The result, and the descriptor, which is left alone if the flags are not those of one byte. -/
def xdmaDescControlSet (first : XdmaDesc) (controlField : UInt32) : ℤ × XdmaDesc :=
  if controlField &&& ~~~0xFF ≠ 0 then (-Errno.EINVAL.code, first)
  else (0, { first with control := first.control &&& ~~~0xFF ||| controlField })

def xdmaDescSet (desc : XdmaDesc) (rcBusAddr epAddr : UInt64) (len : UInt32)
    (dir : DmaDirection) : XdmaDesc :=
  if dir = .toDevice then
    { desc with
      bytes := len
      srcAddrLo := pciDmaL rcBusAddr
      srcAddrHi := pciDmaH rcBusAddr
      dstAddrLo := pciDmaL epAddr
      dstAddrHi := pciDmaH epAddr }
  else
    { desc with
      bytes := len
      srcAddrLo := pciDmaL epAddr
      srcAddrHi := pciDmaH epAddr
      dstAddrLo := pciDmaL rcBusAddr
      dstAddrHi := pciDmaH rcBusAddr }

/-! ## What the engine reads in a descriptor -/

/-- A block of bytes that goes from one address to another. -/
structure DescMove where
  source : UInt64
  dest : UInt64
  count : UInt32
  deriving DecidableEq

namespace XdmaDesc

def move (desc : XdmaDesc) : DescMove where
  source := joinWords desc.srcAddrHi desc.srcAddrLo
  dest := joinWords desc.dstAddrHi desc.dstAddrLo
  count := desc.bytes

def next (desc : XdmaDesc) : UInt64 := joinWords desc.nextHi desc.nextLo

/-- The engine stops after the descriptor. -/
def stops (desc : XdmaDesc) : Bool := desc.control &&& xdmaDescStopped ≠ 0

def HasMagic (desc : XdmaDesc) : Prop := desc.control &&& 0xFFFF0000 = descMagic

/-- The number of descriptors behind the next one that the engine may read with it. -/
def adjacent (desc : XdmaDesc) : ℕ := (desc.control >>> 8 &&& 0x3f).toNat

end XdmaDesc

/-- The move that a buffer and an address on the device make up. -/
def DescMove.between (dir : DmaDirection) (rcBusAddr epAddr : UInt64) (len : UInt32) : DescMove :=
  if dir = .toDevice then ⟨rcBusAddr, epAddr, len⟩ else ⟨epAddr, rcBusAddr, len⟩

theorem move_xdmaDescSet (desc : XdmaDesc) (rcBusAddr epAddr : UInt64) (len : UInt32)
    (dir : DmaDirection) :
    (xdmaDescSet desc rcBusAddr epAddr len dir).move =
      DescMove.between dir rcBusAddr epAddr len := by
  rw [xdmaDescSet, DescMove.between]
  split <;> simp [XdmaDesc.move]

/-! ## Descriptors that are read together -/

def xdmaMaxAdjBlockSize : UInt32 := 0x40

def xdmaPageSize : UInt32 := 0x1000

def xdmaGetNextAdj (remaining nextLo : UInt32) : UInt32 :=
  if remaining ≤ 1 then 0
  else
    let nextIndex := ((nextLo &&& (xdmaPageSize - 1)) >>> 5) % xdmaMaxAdjBlockSize
    min (xdmaMaxAdjBlockSize - nextIndex - 1) (remaining - 1)

/-- The place of a descriptor in its block of 64. -/
theorem toNat_nextIndex (nextLo : UInt32) :
    (((nextLo &&& (xdmaPageSize - 1)) >>> 5) % xdmaMaxAdjBlockSize).toNat =
      nextLo.toNat % 2048 / 32 := by
  have block : xdmaMaxAdjBlockSize.toNat = 64 := rfl
  have mask : (xdmaPageSize - 1).toNat = 2 ^ 12 - 1 := rfl
  rw [UInt32.toNat_mod, UInt32.toNat_shiftRight, UInt32.toNat_and, block, mask,
    Nat.and_two_pow_sub_one_eq_mod, Nat.shiftRight_eq_div_pow]
  change nextLo.toNat % 2 ^ 12 / 2 ^ 5 % 64 = _
  omega

theorem toNat_min (left right : UInt32) : (min left right).toNat = min left.toNat right.toNat := by
  change (if left ≤ right then left else right).toNat = _
  split
  · rename_i le
    exact (min_eq_left (UInt32.le_iff_toNat_le.mp le)).symm
  · rename_i notLe
    exact (min_eq_right (le_of_not_ge (mt UInt32.le_iff_toNat_le.mpr notLe))).symm

theorem toNat_xdmaGetNextAdj (remaining nextLo : UInt32) :
    (xdmaGetNextAdj remaining nextLo).toNat =
      if remaining.toNat ≤ 1 then 0
      else min (63 - nextLo.toNat % 2048 / 32) (remaining.toNat - 1) := by
  have one : (1 : UInt32).toNat = 1 := rfl
  rw [xdmaGetNextAdj]
  by_cases few : remaining ≤ 1
  · have few' := UInt32.le_iff_toNat_le.mp few
    rw [if_pos few, if_pos (one ▸ few')]
    rfl
  · have many := mt UInt32.le_iff_toNat_le.mpr few
    rw [one] at many
    have index := toNat_nextIndex nextLo
    have block : xdmaMaxAdjBlockSize.toNat = 64 := rfl
    rw [if_neg few, if_neg many, toNat_min]
    congr 1
    · rw [UInt32.toNat_sub, UInt32.toNat_sub, index, block, one]
      omega
    · have remaining_lt := remaining.toNat_lt
      rw [UInt32.toNat_sub, one]
      omega

/-- The next descriptor and those that are read with it lie in one block of 64, and they are all
among the remaining ones. -/
theorem xdmaGetNextAdj_inBlock (remaining : UInt32) {nextLo : UInt32}
    (aligned : XdmaDesc.size ∣ nextLo.toNat) :
    nextLo.toNat % 2048 + XdmaDesc.size * ((xdmaGetNextAdj remaining nextLo).toNat + 1) ≤ 2048 ∧
    (xdmaGetNextAdj remaining nextLo).toNat ≤ remaining.toNat - 1 := by
  rw [toNat_xdmaGetNextAdj]
  rcases aligned with ⟨place, place_eq⟩
  rw [place_eq]
  simp only [XdmaDesc.size]
  split <;> omega

theorem xdmaGetNextAdj_lt (remaining nextLo : UInt32) :
    (xdmaGetNextAdj remaining nextLo).toNat < 64 := by
  rw [toNat_xdmaGetNextAdj]
  split <;> omega

/-! ## The control word of a descriptor in a transfer -/

/-- The flags of the last descriptor of a transfer. -/
def endFlags : UInt32 := xdmaDescStopped ||| xdmaDescEop ||| xdmaDescCompleted

/-- The flags of the descriptors of a transfer: none, a completion, or the end. -/
def transferFlags : List UInt32 := [0, xdmaDescCompleted, endFlags]

theorem mem_transferFlags {flags : UInt32} (isTransfer : flags ∈ transferFlags) :
    flags = 0 ∨ flags = xdmaDescCompleted ∨ flags = endFlags := by
  simpa [transferFlags] using isTransfer

/-- The flags that are set stay the only ones, behind the magic number. -/
theorem xdmaDescControlSet_magic {desc : XdmaDesc} {flags : UInt32}
    (isTransfer : flags ∈ transferFlags) (magic : desc.control = descMagic) :
    xdmaDescControlSet desc flags = (0, { desc with control := descMagic ||| flags }) := by
  have isByte : flags &&& ~~~0xFF = 0 ∧
      descMagic &&& ~~~0xFF ||| flags = descMagic ||| flags := by
    rcases mem_transferFlags isTransfer with rfl | rfl | rfl <;> decide
  rw [xdmaDescControlSet, if_neg (not_not.mpr isByte.1), magic, isByte.2]

/-- What the engine reads in a descriptor whose neighbours have been filled in. -/
structure XdmaDesc.Filled (desc : XdmaDesc) (flags adjacent : UInt32) : Prop where
  hasMagic : desc.HasMagic
  stops : desc.stops = decide (flags &&& xdmaDescStopped ≠ 0)
  adjacent : desc.adjacent = adjacent.toNat

theorem xdmaDescAdjacent_filled {desc : XdmaDesc} {flags adjacent : UInt32}
    (isTransfer : flags ∈ transferFlags) (control : desc.control = descMagic ||| flags)
    (few : adjacent.toNat < 64) : (xdmaDescAdjacent desc adjacent).Filled flags adjacent := by
  have words : ∀ index < 64,
      let word : UInt32 := (descMagic ||| flags) &&& (0x0000f0ff : UInt32) |||
        ((0xAD4B0000 : UInt32) ||| UInt32.ofNat index <<< 8)
      word &&& 0xFFFF0000 = descMagic ∧
        decide (word &&& xdmaDescStopped ≠ 0) = decide (flags &&& xdmaDescStopped ≠ 0) ∧
          (word >>> 8 &&& 0x3f).toNat = index := by
    rcases mem_transferFlags isTransfer with rfl | rfl | rfl <;> decide +kernel
  rcases words adjacent.toNat few with ⟨magic, stops, index⟩
  rw [UInt32.ofNat_toNat] at magic stops index
  rw [← control] at magic stops index
  exact ⟨magic, stops, index⟩

end Acai
