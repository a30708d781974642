import Acai.Lib.ByteMemory

/-!
# Layout of the escape page

The guest driver and the user-space manager share one buffer, the escape page.
This file gives its layout as `fpga_usr_manager.h` declares it: the header
`faultdata_struct`, the structure of each action over the data area behind the
header, and the enumerations that both sides exchange as numbers.

All structures are packed. Every action structure starts at the first byte of
the data area, so that the fields of different actions overlay each other; the
handshake and the chunk of `action_transfer_escape_data` are a union and overlay
each other too.
-/

namespace Acai

def pageSize : ℕ := 4096

def u64 (value : ℕ) : ℕ := value % 2 ^ 64

def u32 (value : ℕ) : ℕ := value % 2 ^ 32

def i32 (value : ℤ) : ℤ := Int.bmod value (2 ^ 32)

theorem i32_toInt (value : Int32) : i32 value.toInt = value.toInt := by
  norm_num [i32]

/-- Bytes of the target's escape buffer that the manager maps (`ESCAPE_PAGE_SIZE`). -/
def escapePageSize : ℕ := 3000 * pageSize

inductive Errno where
  | ENXIO
  | EAGAIN
  | ENOMEM
  | EFAULT
  | EINVAL
  deriving DecidableEq

def Errno.code : Errno → ℤ
  | ENXIO => 6
  | EAGAIN => 11
  | ENOMEM => 12
  | EFAULT => 14
  | EINVAL => 22

/-- Whose turn it is to work on the page (`enum fh_turn`). -/
inductive FhTurn where
  | host
  | guest
  deriving DecidableEq

def FhTurn.code : FhTurn → ℕ
  | host => 1
  | guest => 2

/-- The requests of the protocol (`enum fh_action`). -/
inductive FhAction where
  | noaction
  | undef
  | guestContinue
  | allocGuest
  | openDevice
  | closeDevice
  | mmap
  | read
  | write
  | unmap
  | ping
  | ioctlDma
  | verifyMapping
  | setup
  | teardown
  | dma
  | seek
  | getEmptyMappings
  | transferEscapeData
  deriving DecidableEq

def FhAction.code : FhAction → ℕ
  | noaction => 0
  | undef => 1
  | guestContinue => 2
  | allocGuest => 10
  | openDevice => 11
  | closeDevice => 12
  | mmap => 13
  | read => 14
  | write => 15
  | unmap => 16
  | ping => 17
  | ioctlDma => 18
  | verifyMapping => 20
  | setup => 21
  | teardown => 22
  | dma => 23
  | seek => 24
  | getEmptyMappings => 25
  | transferEscapeData => 30

def FhAction.ofCode : ℕ → Option FhAction
  | 0 => some noaction
  | 1 => some undef
  | 2 => some guestContinue
  | 10 => some allocGuest
  | 11 => some openDevice
  | 12 => some closeDevice
  | 13 => some mmap
  | 14 => some read
  | 15 => some write
  | 16 => some unmap
  | 17 => some ping
  | 18 => some ioctlDma
  | 20 => some verifyMapping
  | 21 => some setup
  | 22 => some teardown
  | 23 => some dma
  | 24 => some seek
  | 25 => some getEmptyMappings
  | 30 => some transferEscapeData
  | _ => none

@[simp]
theorem FhAction.ofCode_code (action : FhAction) : ofCode action.code = some action := by
  cases action <;> rfl

theorem FhAction.code_lt (action : FhAction) : action.code < 2 ^ 64 := by
  cases action <;> decide

/-- States of an escape-data transfer (`enum action_transfer_escape_data_status`). -/
inductive TransferStatus where
  | done
  | ok
  | transferSize
  | transferData
  | error
  deriving DecidableEq

def TransferStatus.code : TransferStatus → ℤ
  | done => 0
  | ok => 1
  | transferSize => 2
  | transferData => 3
  | error => 4

/-- Answers to a mapping query (`enum action_verify_mappping_status`). -/
inductive VerifyStatus where
  | success
  | fail
  deriving DecidableEq

def VerifyStatus.code : VerifyStatus → ℕ
  | success => 1
  | fail => 2

/-! ## The header -/

namespace FaultData

/-- `nonce`; the guest's store to it is what escapes to the host. -/
def nonce : Field := ⟨0, 8⟩

def turn : Field := ⟨8, 8⟩

def action : Field := ⟨16, 8⟩

/-- Offset of `data`, the data area; also `sizeof(struct faultdata_struct)`. -/
def data : ℕ := 32

end FaultData

/-! ## The data area -/

/-- A field of an action structure, by its offset in the data area. -/
def dataField (offset width : ℕ) : Field := ⟨FaultData.data + offset, width⟩

namespace ActionCommon

def fd : Field := dataField 0 4

def ret : Field := dataField 4 8

def errNo : Field := dataField 12 4

end ActionCommon

namespace ActionOpenclose

def device : ℕ := FaultData.data + 16

def deviceSize : ℕ := 128

def flags : Field := dataField 144 4

end ActionOpenclose

namespace ActionPing

def ping : Field := dataField 0 4

end ActionPing

namespace ActionVerifyMapping

def status : Field := dataField 0 4

def pfn : Field := dataField 4 8

end ActionVerifyMapping

namespace ActionReadWrite

def count : Field := dataField 16 8

def offset : Field := dataField 24 8

def bufferSize : Field := dataField 32 8

def buffer : Field := dataField 40 8

end ActionReadWrite

namespace ActionMmapDevice

def vmStart : Field := dataField 24 8

def vmEnd : Field := dataField 32 8

def vmPgoff : Field := dataField 40 8

def vmFlags : Field := dataField 48 8

def vmPageProt : Field := dataField 56 8

def pfnSize : Field := dataField 64 8

def pfn (index : ℕ) : Field := dataField (72 + 8 * index) 8

def size : ℕ := 72

end ActionMmapDevice

namespace ActionUnmap

def vmStart : Field := dataField 16 8

def vmEnd : Field := dataField 24 8

def pfnSize : Field := dataField 32 8

def pfn (index : ℕ) : Field := dataField (40 + 8 * index) 8

def size : ℕ := 40

end ActionUnmap

namespace ActionIoctl

def cmd : Field := dataField 16 4

def arg : Field := dataField 20 8

end ActionIoctl

namespace ActionDma

def phyAddr : Field := dataField 16 8

def doWrite : Field := dataField 24 4

def doAperture : Field := dataField 28 4

def userBuf : Field := dataField 32 8

def len : Field := dataField 40 8

def pagesNr : Field := dataField 48 8

def size : ℕ := 56

end ActionDma

namespace ActionEmptyMappings

def lastPfn : Field := dataField 16 4

def pfnMaxNrGuest : Field := dataField 20 8

def pfnNr : Field := dataField 28 8

def pfn (index : ℕ) : Field := dataField (36 + 8 * index) 8

def size : ℕ := 36

end ActionEmptyMappings

namespace ActionTransferEscapeData

def status : Field := dataField 0 4

def totalSize : Field := dataField 4 4

def chunkSize : Field := dataField 8 4

def infoCtx : Field := dataField 12 8

/-- `chunk.chunk_data_size`, which overlays `handshake.total_size`. -/
def chunkDataSize : Field := dataField 4 4

/-- Offset of `chunk.chunk_data` on the page; it overlays the rest of the handshake. -/
def chunkData : ℕ := FaultData.data + 8

def size : ℕ := 20

end ActionTransferEscapeData

/-- One record of the list that describes a DMA buffer (`struct page_chunk`). -/
structure PageChunk where
  /-- A guest page frame number or, once translated, a host address. -/
  addr : ℕ
  offset : ℕ
  nbytes : ℕ
  deriving DecidableEq

namespace PageChunk

def size : ℕ := 24

def toBytes (chunk : PageChunk) : List UInt8 :=
  leBytes 8 chunk.addr ++ leBytes 8 chunk.offset ++ leBytes 8 chunk.nbytes

def ofMem (mem : ByteMem) (address : ℕ) : PageChunk where
  addr := mem.get ⟨address, 8⟩
  offset := mem.get ⟨address + 8, 8⟩
  nbytes := mem.get ⟨address + 16, 8⟩

@[simp]
theorem length_toBytes (chunk : PageChunk) : chunk.toBytes.length = size := by
  simp [toBytes, size]

/-- Two records are equal exactly when all their bytes are. -/
theorem ofMem_eq_ofMem_iff {left right : ByteMem} {address address' : ℕ} :
    ofMem left address = ofMem right address' ↔
      ∀ index < size, left (address + index) = right (address' + index) := by
  simp only [ofMem, mk.injEq, ByteMem.get_eq_get_iff, size]
  constructor
  · rintro ⟨addr, offset, nbytes⟩ index index_lt
    rcases lt_or_ge index 8 with first | later
    · exact addr index first
    rcases lt_or_ge index 16 with second | last
    · have byte := offset (index - 8) (by omega)
      rwa [Nat.add_assoc, Nat.add_assoc, Nat.add_sub_cancel' later] at byte
    · have byte := nbytes (index - 16) (by omega)
      rwa [Nat.add_assoc, Nat.add_assoc, Nat.add_sub_cancel' last] at byte
  · intro bytes
    refine ⟨fun index index_lt => bytes index (by omega), fun index index_lt => ?_,
      fun index index_lt => ?_⟩
    · rw [Nat.add_assoc, Nat.add_assoc]
      exact bytes (8 + index) (by omega)
    · rw [Nat.add_assoc, Nat.add_assoc]
      exact bytes (16 + index) (by omega)

def InRange (chunk : PageChunk) : Prop :=
  chunk.addr < 2 ^ 64 ∧ chunk.offset < 2 ^ 64 ∧ chunk.nbytes < 2 ^ 64

end PageChunk

end Acai
