import Acai.Engine.Descriptor
import Acai.Lib.Segments

/-!
# Requests to the engine

Before a transfer, the driver cuts the scatterlist into blocks that a descriptor can
hold. An entry of the list can be longer than that, and takes several blocks then.

The array for the blocks is allocated before the list is cut. The number of its slots
is computed from the lengths of the entries in 32 bits, and so is its size; the driver
looks only after the cutting whether there were enough slots, and never whether they
lie in the memory that it got. The blocks do, unless an entry is so long that the
rounding up of its length wraps around, or the slots are so many that the size of the
array does (`xdmaInitRequest_cuts`).
-/

namespace Acai

/-- An entry of a scatterlist as it is mapped for the device. -/
structure DmaEntry where
  /-- `sg_dma_address` -/
  addr : UInt64
  /-- `sg_dma_len` -/
  len : UInt32
  deriving DecidableEq

structure SwDesc where
  addr : UInt64
  len : UInt32
  deriving DecidableEq

/-- The module parameter `desc_blen_max`. -/
abbrev DescBlenMax : Type := { len : UInt32 // 0 < len }

/-- The default of the parameter. -/
def xdmaDescBlenMax : DescBlenMax := ⟨0xfffffff, by decide⟩

/-- `sizeof(struct sw_desc)` -/
def SwDesc.size : ℕ := 16

structure XdmaRequest where
  epAddr : UInt64
  totalLen : UInt32
  swDescIdx : ℕ
  sdesc : List SwDesc

def XdmaRequest.swDescCnt (request : XdmaRequest) : ℕ := request.sdesc.length

/-- The inner loop of `xdma_init_request`, which goes on as long as `tlen` is not zero. Every
iteration takes off a byte at least, so that `tlen` bounds their number. -/
def cutLoop (blenMax : DescBlenMax) : ℕ → UInt64 → UInt32 → List SwDesc
  | 0, _, _ => []
  | fuel + 1, addr, tlen =>
      if tlen = 0 then []
      else if blenMax.val < tlen then
        ⟨addr, blenMax.val⟩ ::
          cutLoop blenMax fuel (addr + blenMax.val.toUInt64) (tlen - blenMax.val)
      else ⟨addr, tlen⟩ :: cutLoop blenMax fuel addr 0

def cutEntry (blenMax : DescBlenMax) (entry : DmaEntry) : List SwDesc :=
  cutLoop blenMax entry.len.toNat entry.addr entry.len

def cutSgl (blenMax : DescBlenMax) (sgl : List DmaEntry) : List SwDesc :=
  sgl.flatMap (cutEntry blenMax)

/-- The descriptors that are added for an entry that is too long for one. -/
def extraDescs (blenMax : DescBlenMax) (entry : DmaEntry) : UInt32 :=
  if blenMax.val < entry.len then (entry.len + blenMax.val - 1) / blenMax.val else 0

/-- `max` of `xdma_init_request` as it is handed to `xdma_request_alloc`. -/
def sdescNr (blenMax : DescBlenMax) (sgl : List DmaEntry) : ℕ :=
  u32 (sgl.length + (sgl.map fun entry => (extraDescs blenMax entry).toNat).sum)

/-- `total_len`, which wraps around. -/
def totalLen (sgl : List DmaEntry) : UInt32 := sgl.foldl (fun total entry => total + entry.len) 0

/-- `xdma_init_request`; `none` if there is no memory, or if there were too many blocks for it. -/
def xdmaInitRequest (blenMax : DescBlenMax) (alloc : Bool) (sgl : List DmaEntry)
    (epAddr : UInt64) : Option XdmaRequest :=
  if !alloc then none
  else
    let sdesc := cutSgl blenMax sgl
    if i32 (sdescNr blenMax sgl) < sdesc.length then none
    else some
      { epAddr := epAddr
        totalLen := totalLen sgl
        swDescIdx := 0
        sdesc := sdesc }

/-! ## The bytes of a list -/

/-- The address a number of bytes behind another. -/
def bytesAfter (addr : UInt64) (count : ℕ) : UInt64 := addr + UInt64.ofNat count

theorem bytesAfter_bytesAfter (addr : UInt64) (first second : ℕ) :
    bytesAfter (bytesAfter addr first) second = bytesAfter addr (first + second) := by
  rw [bytesAfter, bytesAfter, bytesAfter, UInt64.ofNat_add, UInt64.add_assoc]

@[simp]
theorem bytesAfter_zero (addr : UInt64) : bytesAfter addr 0 = addr := UInt64.add_zero addr

namespace DmaEntry

def segment (entry : DmaEntry) : Segment UInt64 := ⟨entry.addr, entry.len.toNat⟩

/-- The addresses of the bytes of an entry. -/
def addrs (entry : DmaEntry) : List UInt64 := entry.segment.places bytesAfter

end DmaEntry

namespace SwDesc

def segment (block : SwDesc) : Segment UInt64 := ⟨block.addr, block.len.toNat⟩

def addrs (block : SwDesc) : List UInt64 := block.segment.places bytesAfter

theorem length_addrs (block : SwDesc) : block.addrs.length = block.len.toNat := by
  simp [addrs, segment, Segment.places]

/-- The addresses of the first bytes of a block, and those of the others. -/
theorem addrs_split (addr : UInt64) {tlen len : UInt32} (le : len ≤ tlen) :
    (SwDesc.mk addr tlen).addrs =
      (SwDesc.mk addr len).addrs ++ (SwDesc.mk (addr + len.toUInt64) (tlen - len)).addrs := by
  have le' := UInt32.le_iff_toNat_le.mp le
  have whole : (SwDesc.mk addr tlen).segment = Segment.join (SwDesc.mk addr len).segment
      (SwDesc.mk (addr + len.toUInt64) (tlen - len)).segment := by
    simp only [SwDesc.segment, Segment.join, UInt32.toNat_sub_of_le _ _ le]
    congr 1
    omega
  rw [SwDesc.addrs, SwDesc.addrs, SwDesc.addrs, whole]
  refine Segment.places_join bytesAfter_bytesAfter ?_
  simp [SwDesc.segment, Segment.behind, bytesAfter]

end SwDesc

section Cutting

variable (blenMax : DescBlenMax)

theorem blenMax_pos : 0 < blenMax.val.toNat := UInt32.lt_iff_toNat_lt.mp blenMax.property

/-- The inner loop keeps the bytes of the entry, in their order. -/
theorem addrs_cutLoop {fuel : ℕ} {addr : UInt64} {tlen : UInt32} (enough : tlen.toNat ≤ fuel) :
    (cutLoop blenMax fuel addr tlen).flatMap SwDesc.addrs = (SwDesc.mk addr tlen).addrs := by
  induction fuel generalizing addr tlen with
  | zero =>
      obtain rfl : tlen = 0 := UInt32.toNat_inj.mp (Nat.le_zero.mp enough)
      rfl
  | succ fuel ih =>
      rw [cutLoop]
      split
      · rename_i none
        subst none
        rfl
      split
      · rename_i long
        have pos := blenMax_pos blenMax
        have rest : (tlen - blenMax.val).toNat = tlen.toNat - blenMax.val.toNat :=
          UInt32.toNat_sub_of_le _ _ (UInt32.le_of_lt long)
        rw [List.flatMap_cons, ih (by omega), SwDesc.addrs_split addr (UInt32.le_of_lt long)]
      · rw [List.flatMap_cons, ih (by simp)]
        exact List.append_nil _

/-- Cutting keeps the bytes of the list, in their order. -/
theorem addrs_cutSgl (sgl : List DmaEntry) :
    (cutSgl blenMax sgl).flatMap SwDesc.addrs = sgl.flatMap DmaEntry.addrs := by
  rw [cutSgl, List.flatMap_assoc]
  exact List.flatMap_congr fun entry _ => addrs_cutLoop blenMax le_rfl

/-- The number of blocks of an entry is its length divided by the size of a block, rounded up. -/
theorem length_cutLoop {fuel : ℕ} {addr : UInt64} {tlen : UInt32} (enough : tlen.toNat ≤ fuel) :
    (cutLoop blenMax fuel addr tlen).length =
      (tlen.toNat + blenMax.val.toNat - 1) / blenMax.val.toNat := by
  have pos := blenMax_pos blenMax
  induction fuel generalizing addr tlen with
  | zero =>
      rw [Nat.le_zero.mp enough, Nat.zero_add, Nat.div_eq_of_lt (Nat.sub_lt pos Nat.one_pos)]
      rfl
  | succ fuel ih =>
      rw [cutLoop]
      split
      · rename_i none
        subst none
        rw [UInt32.toNat_zero, Nat.zero_add, Nat.div_eq_of_lt (Nat.sub_lt pos Nat.one_pos)]
        rfl
      rename_i nonempty
      have tlen_pos : 0 < tlen.toNat :=
        UInt32.lt_iff_toNat_lt.mp (UInt32.pos_iff_ne_zero.mpr nonempty)
      split
      · rename_i long
        have long' := UInt32.lt_iff_toNat_lt.mp long
        have rest : (tlen - blenMax.val).toNat = tlen.toNat - blenMax.val.toNat :=
          UInt32.toNat_sub_of_le _ _ (UInt32.le_of_lt long)
        rw [List.length_cons, ih (by omega), rest, ← Nat.add_div_right _ pos]
        congr 1
        omega
      · rename_i short
        have short' := UInt32.le_iff_toNat_le.mp (UInt32.not_lt.mp short)
        rw [List.length_cons, ih (by simp), UInt32.toNat_zero, Nat.zero_add,
          Nat.div_eq_of_lt (Nat.sub_lt pos Nat.one_pos)]
        refine (Nat.div_eq_of_lt_le ?_ ?_).symm <;> omega

/-- The slots that are allocated for a list, if their number does not wrap around. -/
def slots (blenMax : DescBlenMax) (sgl : List DmaEntry) : ℕ :=
  sgl.length + (sgl.map fun entry => (extraDescs blenMax entry).toNat).sum

/-- An entry that is so long that rounding up its length wraps around: there is room for one block
only, and the blocks behind it have been stored before the driver finds that out. -/
theorem xdmaInitRequest_overruns {entry : DmaEntry} (alloc : Bool) (epAddr : UInt64)
    (wraps : 2 ^ 32 < entry.len.toNat + blenMax.val.toNat) (long : blenMax.val < entry.len) :
    sdescNr blenMax [entry] = 1 ∧ 1 < (cutSgl blenMax [entry]).length ∧
      xdmaInitRequest blenMax alloc [entry] epAddr = none := by
  have pos := blenMax_pos blenMax
  have long' := UInt32.lt_iff_toNat_lt.mp long
  have one : (1 : UInt32).toNat = 1 := rfl
  have none : extraDescs blenMax entry = 0 := by
    refine UInt32.toNat_inj.mp ?_
    rw [extraDescs, if_pos long, UInt32.toNat_div, UInt32.toNat_sub, UInt32.toNat_add, one]
    refine Nat.div_eq_of_lt ?_
    have entry_lt := entry.len.toNat_lt
    have blenMax_lt := blenMax.val.toNat_lt
    omega
  have nr : sdescNr blenMax [entry] = 1 := by simp [sdescNr, none, u32]
  have length : (cutSgl blenMax [entry]).length =
      (entry.len.toNat + blenMax.val.toNat - 1) / blenMax.val.toNat := by
    rw [cutSgl, List.flatMap_singleton, cutEntry, length_cutLoop blenMax le_rfl]
  have many : 1 < (cutSgl blenMax [entry]).length := by
    rw [length]
    exact (Nat.le_div_iff_mul_le pos).mpr (by omega)
  refine ⟨nr, many, ?_⟩
  have tooFew : i32 (sdescNr blenMax [entry]) < (cutSgl blenMax [entry]).length := by
    rw [nr, show i32 ((1 : ℕ) : ℤ) = 1 by decide]
    omega
  simp only [xdmaInitRequest, if_pos tooFew, ite_self]

/-- The blocks of the default size wrap around from fifteen and a bit of them on. -/
theorem xdmaInitRequest_overruns_longEntry :
    sdescNr xdmaDescBlenMax [⟨0x1000, 0xf0000002⟩] = 1 ∧
      1 < (cutSgl xdmaDescBlenMax [⟨0x1000, 0xf0000002⟩]).length ∧
      xdmaInitRequest xdmaDescBlenMax true [⟨0x1000, 0xf0000002⟩] 0 = none :=
  xdmaInitRequest_overruns xdmaDescBlenMax true 0 (by decide) (by decide)

end Cutting

/-! ## Bytes that are carried -/

/-- The bytes of a move: where each of them comes from, and where it goes to. -/
def DescMove.bytes (move : DescMove) : List (UInt64 × UInt64) :=
  (List.range move.count.toNat).map fun index =>
    (bytesAfter move.source index, bytesAfter move.dest index)

/-- Byte after byte of a buffer, and the bytes of the device from an address on. -/
def carried (dir : DmaDirection) (epAddr : UInt64) (addrs : List UInt64) : List (UInt64 × UInt64) :=
  addrs.mapIdx fun index addr =>
    if dir = .toDevice then (addr, bytesAfter epAddr index) else (bytesAfter epAddr index, addr)

@[simp]
theorem length_carried (dir : DmaDirection) (epAddr : UInt64) (addrs : List UInt64) :
    (carried dir epAddr addrs).length = addrs.length := List.length_mapIdx

theorem carried_append (dir : DmaDirection) (epAddr : UInt64) (first second : List UInt64) :
    carried dir epAddr (first ++ second) =
      carried dir epAddr first ++ carried dir (bytesAfter epAddr first.length) second := by
  simp only [carried, List.mapIdx_append, bytesAfter_bytesAfter, Nat.add_comm]

theorem bytes_between (dir : DmaDirection) (epAddr : UInt64) (block : SwDesc) :
    (DescMove.between dir block.addr epAddr block.len).bytes = carried dir epAddr block.addrs := by
  have count : (DescMove.between dir block.addr epAddr block.len).count = block.len := by
    rw [DescMove.between]
    split <;> rfl
  refine List.ext_getElem ?_ fun index first second => ?_
  · simp [DescMove.bytes, count, block.length_addrs]
  · simp only [DescMove.bytes, carried, DescMove.between, SwDesc.addrs, SwDesc.segment,
      Segment.places, List.getElem_map, List.getElem_mapIdx, List.getElem_range]
    split <;> rfl

end Acai
