import Acai.Engine.Request
import Acai.Lib.Chain
import Acai.Lib.Sweep

/-!
# Transfers and the ring of descriptors

The descriptors of an engine lie in one piece of memory, and transfers use them one
after another, from its start again when its end is reached. A transfer is a chain of
neighbouring descriptors, and never goes beyond the end of the memory: a request that
would is split up.

What the engine finds when it follows the chain of a transfer are the moves of the next
blocks of the request, in their order, and of nothing else, and what it reads in one
access belongs to the transfer (`transferInit_chain`).
-/

namespace Acai

/-- The memory that `engine_alloc_resource` has got for the descriptors. `dma_alloc_coherent`
gives whole pages. -/
structure DescMem where
  bus : UInt64
  /-- `desc_max` -/
  max : ℕ
  max_pos : 0 < max
  max_le : max ≤ 0x800
  aligned : 4096 ∣ bus.toNat
  inSpace : bus.toNat + XdmaDesc.size * max ≤ 2 ^ 64

/-- What a streaming engine writes back for a descriptor. -/
structure XdmaResult where
  status : UInt32
  length : UInt32
  deriving DecidableEq

/-- `sizeof(struct xdma_result)` -/
def XdmaResult.size : ℕ := 32

/-- The part of `struct xdma_engine` that transfers are made from. -/
structure DescEngine where
  dir : DmaDirection
  streaming : Bool
  nonIncrAddr : Bool
  eopFlush : Bool
  mem : DescMem
  desc : ℕ → XdmaDesc
  cyclicResult : ℕ → XdmaResult
  cyclicResultBus : UInt64
  descIdx : Fin mem.max
  descUsed : ℤ

structure XdmaTransfer where
  dir : DmaDirection
  /-- The place of `desc_virt` and of `res_virt` in their arrays. -/
  descIndex : ℕ
  descBus : UInt64
  resBus : UInt64
  descAdjacent : ℕ
  descNum : ℕ
  descCmplTh : ℕ
  len : UInt32

/-- The engine writes the results of its descriptors. -/
def DescEngine.WritesResults (engine : DescEngine) : Prop :=
  engine.streaming = true ∧ engine.dir = .fromDevice

instance (engine : DescEngine) : Decidable engine.WritesResults := by
  unfold DescEngine.WritesResults
  infer_instance

/-! ## Filling in the descriptors -/

/-- A descriptor of a new chain; the last one has the next address zero. -/
def chainedDesc (next : UInt64) (desc : XdmaDesc) : XdmaDesc :=
  { desc with
    nextLo := pciDmaL next
    nextHi := pciDmaH next
    bytes := 0
    control := descMagic }

def transferDescInit (first : ℕ) (descBus : UInt64) (count : ℕ) (desc : ℕ → XdmaDesc) :
    ℕ → XdmaDesc :=
  let linked := swept (fun bus _ => chainedDesc (bytesAfter bus XdmaDesc.size))
    (fun bus _ => bytesAfter bus XdmaDesc.size) (List.range (count - 1)) first descBus desc
  Function.update linked (first + (count - 1)) (chainedDesc 0 (linked (first + (count - 1))))

/-- The numbers of adjacent descriptors. -/
def setAdjacent (first count : ℕ) (desc : ℕ → XdmaDesc) : ℕ → XdmaDesc :=
  swept (fun _ index cell => xdmaDescAdjacent cell
      (xdmaGetNextAdj (UInt32.ofNat (count - index - 1)) cell.nextLo))
    (fun _ _ => ()) (List.range count) first () desc

/-- What the loop of `transfer_build` keeps in `req->ep_addr`, `xfer->len` and `bus`. -/
structure BuildState where
  epAddr : UInt64
  len : UInt32
  bus : UInt64

namespace DescEngine

variable (engine : DescEngine)

def buildDesc (state : BuildState) (block : SwDesc) (desc : XdmaDesc) : XdmaDesc :=
  let desc := xdmaDescSet desc block.addr state.epAddr block.len engine.dir
  if engine.WritesResults then
    { desc with srcAddrLo := pciDmaL state.bus, srcAddrHi := pciDmaH state.bus }
  else desc

def buildNext (state : BuildState) (block : SwDesc) : BuildState where
  epAddr := if engine.nonIncrAddr then state.epAddr else bytesAfter state.epAddr block.len.toNat
  len := state.len + block.len
  bus := if engine.WritesResults then bytesAfter state.bus XdmaResult.size else state.bus

/-- The flags of a descriptor of a transfer. -/
def descFlags (isLast : Bool) : UInt32 :=
  if isLast then endFlags
  else if engine.eopFlush then xdmaDescCompleted
  else 0

/-- The control words: those of the last descriptor, and of the others for `eop_flush`. -/
def setControls (first count : ℕ) (desc : ℕ → XdmaDesc) : ℕ → XdmaDesc :=
  let last := first + (count - 1)
  let ended := Function.update desc last (xdmaDescControlSet (desc last) endFlags).2
  if engine.eopFlush then
    swept (fun _ _ cell => (xdmaDescControlSet cell xdmaDescCompleted).2) (fun _ _ => ())
      (List.range (count - 1)) first () ended
  else ended

/-- The bus address of a descriptor. -/
def descAddr (index : ℕ) : UInt64 := bytesAfter engine.mem.bus (XdmaDesc.size * index)

/-- The number of descriptors of the next transfer. -/
def transferDescMax (request : XdmaRequest) : ℕ :=
  let descMax := min (request.swDescCnt - request.swDescIdx) engine.mem.max
  if engine.mem.max ≤ engine.descIdx + descMax then engine.mem.max - engine.descIdx else descMax

/-- The blocks of the next transfer. -/
def transferBlocks (request : XdmaRequest) : List SwDesc :=
  (request.sdesc.drop request.swDescIdx).take (engine.transferDescMax request)

def resBus : UInt64 := bytesAfter engine.cyclicResultBus (XdmaResult.size * engine.descIdx)

/-- `transfer_build` on the descriptors from `desc_idx` on. -/
def transferBuild (request : XdmaRequest) (desc : ℕ → XdmaDesc) : BuildState × (ℕ → XdmaDesc) :=
  sweep engine.buildDesc engine.buildNext (engine.transferBlocks request) engine.descIdx
    ⟨request.epAddr, 0, engine.resBus⟩ desc

/-- The results that `transfer_build` clears. -/
def clearResults (request : XdmaRequest) : ℕ → XdmaResult :=
  if engine.WritesResults then
    swept (fun _ _ _ => ⟨0, 0⟩) (fun _ _ => ()) (engine.transferBlocks request) engine.descIdx ()
      engine.cyclicResult
  else engine.cyclicResult

/-- `transfer_init`. The transfer has a descriptor at least. -/
def transferInit (request : XdmaRequest) : DescEngine × XdmaRequest × XdmaTransfer :=
  let first : ℕ := engine.descIdx
  let descMax := engine.transferDescMax request
  let chained := transferDescInit first (engine.descAddr first) descMax engine.desc
  let built := engine.transferBuild request chained
  let controlled := engine.setControls first descMax built.2
  ⟨{ engine with
      desc := setAdjacent first descMax controlled
      cyclicResult := engine.clearResults request
      descIdx := ⟨(first + descMax) % engine.mem.max, Nat.mod_lt _ engine.mem.max_pos⟩
      descUsed := engine.descUsed + descMax },
    { request with
      epAddr := built.1.epAddr
      swDescIdx := request.swDescIdx + descMax },
    { dir := engine.dir
      descIndex := first
      descBus := engine.descAddr first
      resBus := engine.resBus
      descAdjacent := descMax
      descNum := descMax
      descCmplTh := if engine.eopFlush then 1 else descMax
      len := built.1.len }⟩

/-! ## The number of descriptors -/

theorem transferDescMax_eq (request : XdmaRequest) :
    engine.transferDescMax request =
      min (request.swDescCnt - request.swDescIdx) (engine.mem.max - engine.descIdx) := by
  have idx_lt := engine.descIdx.isLt
  rw [transferDescMax]
  split <;> omega

variable {engine} {request : XdmaRequest}

/-- A transfer stays in the memory of the descriptors. -/
theorem transferDescMax_le : engine.descIdx + engine.transferDescMax request ≤ engine.mem.max := by
  have idx_lt := engine.descIdx.isLt
  rw [transferDescMax_eq]
  omega

theorem transferDescMax_pos (pending : request.swDescIdx < request.swDescCnt) :
    0 < engine.transferDescMax request := by
  have idx_lt := engine.descIdx.isLt
  rw [transferDescMax_eq]
  omega

theorem length_transferBlocks :
    (engine.transferBlocks request).length = engine.transferDescMax request := by
  have few := engine.transferDescMax_eq request
  rw [transferBlocks, List.length_take, List.length_drop, ← XdmaRequest.swDescCnt]
  omega

end DescEngine

/-! ## What is filled in -/

theorem foldl_bytesAfter {Input : Type*} (inputs : List Input) (bus : UInt64) (size : ℕ) :
    inputs.foldl (fun bus _ => bytesAfter bus size) bus =
      bytesAfter bus (size * inputs.length) := by
  induction inputs generalizing bus with
  | nil => simp
  | cons input inputs ih =>
      rw [List.foldl_cons, ih, bytesAfter_bytesAfter, List.length_cons, Nat.mul_succ, Nat.add_comm]

/-- The next address of a descriptor in a chain. -/
def nextInChain (descBus : UInt64) (count index : ℕ) : UInt64 :=
  if index + 1 < count then bytesAfter descBus (XdmaDesc.size * (index + 1)) else 0

section Stages

variable {first count index : ℕ} {desc : ℕ → XdmaDesc} {descBus : UInt64}

theorem transferDescInit_inside (lt : index < count) :
    transferDescInit first descBus count desc (first + index) =
      chainedDesc (nextInChain descBus count index) (desc (first + index)) := by
  rw [transferDescInit, nextInChain]
  by_cases isLast : index + 1 < count
  · have before : index < (List.range (count - 1)).length := by
      rw [List.length_range]
      omega
    rw [Function.update_of_ne (by omega), swept_inside before, foldl_bytesAfter, if_pos isLast,
      bytesAfter_bytesAfter, List.length_take_of_le before.le, Nat.mul_succ]
  · obtain rfl : index = count - 1 := by omega
    rw [Function.update_self, if_neg isLast, swept_outside (by simp)]

theorem transferDescInit_outside {other : ℕ} (nonempty : 0 < count)
    (outside : other < first ∨ first + count ≤ other) :
    transferDescInit first descBus count desc other = desc other := by
  rw [transferDescInit, Function.update_of_ne (by omega), swept_outside]
  rw [List.length_range]
  omega

theorem setAdjacent_inside (lt : index < count) :
    setAdjacent first count desc (first + index) =
      xdmaDescAdjacent (desc (first + index)) (xdmaGetNextAdj (UInt32.ofNat (count - index - 1))
        (desc (first + index)).nextLo) := by
  rw [setAdjacent, swept_inside (by rwa [List.length_range]), List.getElem_range]

theorem setAdjacent_outside {other : ℕ} (outside : other < first ∨ first + count ≤ other) :
    setAdjacent first count desc other = desc other :=
  swept_outside (by rwa [List.length_range])

end Stages

namespace DescEngine

variable {engine : DescEngine} {request : XdmaRequest}

theorem descFlags_transfer (isLast : Bool) : engine.descFlags isLast ∈ transferFlags := by
  rw [descFlags, transferFlags]
  split
  · simp
  split <;> simp

section Controls

variable {first count index : ℕ} {desc : ℕ → XdmaDesc}

theorem setControls_inside (lt : index < count)
    (magic : ∀ index < count, (desc (first + index)).control = descMagic) :
    engine.setControls first count desc (first + index) =
      { desc (first + index) with
        control := descMagic ||| engine.descFlags (index + 1 = count) } := by
  have mem : endFlags ∈ transferFlags ∧ xdmaDescCompleted ∈ transferFlags := by decide
  have set : ∀ flags ∈ transferFlags, (xdmaDescControlSet (desc (first + index)) flags).2 =
      { desc (first + index) with control := descMagic ||| flags } := fun flags isTransfer => by
    rw [xdmaDescControlSet_magic isTransfer (magic index lt)]
  by_cases isLast : index + 1 = count
  · obtain rfl : index = count - 1 := by omega
    rw [decide_eq_true isLast, descFlags, if_pos rfl, ← set _ mem.1, setControls]
    split
    · rw [swept_outside (by simp), Function.update_self]
    · exact Function.update_self ..
  · have others : (desc (first + index)) =
        { desc (first + index) with control := descMagic ||| 0 } := by
      rw [← magic index lt, show (desc (first + index)).control ||| 0 = _ from UInt32.or_zero]
    rw [decide_eq_false isLast, descFlags, if_neg Bool.false_ne_true, setControls]
    split
    · rw [← set _ mem.2, swept_inside (by rw [List.length_range]; omega),
        Function.update_of_ne (by omega)]
    · rw [Function.update_of_ne (by omega)]
      exact others

theorem setControls_outside {other : ℕ} (nonempty : 0 < count)
    (outside : other < first ∨ first + count ≤ other) :
    engine.setControls first count desc other = desc other := by
  have lastOther : other ≠ first + (count - 1) := by omega
  rw [setControls]
  split
  · rw [swept_outside (by rw [List.length_range]; omega), Function.update_of_ne lastOther]
  · rw [Function.update_of_ne lastOther]

end Controls

/-! ## What a block is made into -/

/-- The move of a block. -/
def blockMove (engine : DescEngine) (state : BuildState) (block : SwDesc) : DescMove :=
  if engine.WritesResults then ⟨state.bus, block.addr, block.len⟩
  else DescMove.between engine.dir block.addr state.epAddr block.len

def blockMoves (engine : DescEngine) : BuildState → List SwDesc → List DescMove
  | _, [] => []
  | state, block :: blocks =>
      engine.blockMove state block :: engine.blockMoves (engine.buildNext state block) blocks

theorem blockMoves_eq (engine : DescEngine) (state : BuildState) (blocks : List SwDesc) :
    engine.blockMoves state blocks = (List.range blocks.length).map fun index =>
      engine.blockMove ((blocks.take index).foldl engine.buildNext state)
        (blocks.getD index ⟨0, 0⟩) := by
  induction blocks generalizing state with
  | nil => rfl
  | cons block blocks ih =>
      rw [blockMoves, ih, List.length_cons, List.range_succ_eq_map, List.map_cons, List.map_map]
      rfl

variable {state : BuildState} {block : SwDesc} {desc : XdmaDesc}

@[simp]
theorem control_buildDesc : (engine.buildDesc state block desc).control = desc.control := by
  rw [buildDesc, xdmaDescSet]
  split <;> split <;> rfl

@[simp]
theorem next_buildDesc : (engine.buildDesc state block desc).next = desc.next := by
  rw [buildDesc, xdmaDescSet]
  split <;> split <;> rfl

theorem move_buildDesc :
    (engine.buildDesc state block desc).move = engine.blockMove state block := by
  rw [buildDesc, blockMove]
  split
  · rename_i writesResults
    have fromDevice : engine.dir ≠ .toDevice := by
      rw [writesResults.2]
      decide
    simp [XdmaDesc.move, xdmaDescSet, fromDevice]
  · exact move_xdmaDescSet ..

/-- The accumulator of `transfer_build` before a block. -/
def stateAt (engine : DescEngine) (request : XdmaRequest) (index : ℕ) : BuildState :=
  ((engine.transferBlocks request).take index).foldl engine.buildNext
    ⟨request.epAddr, 0, engine.resBus⟩

/-- A descriptor of the next transfer before its number of adjacent ones is known. -/
def filledDesc (engine : DescEngine) (request : XdmaRequest) (index : ℕ) : XdmaDesc :=
  let count := engine.transferDescMax request
  let first : ℕ := engine.descIdx
  { engine.buildDesc (engine.stateAt request index)
      ((engine.transferBlocks request).getD index ⟨0, 0⟩)
      (chainedDesc (nextInChain (engine.descAddr first) count index)
        (engine.desc (first + index))) with
    control := descMagic ||| engine.descFlags (index + 1 = count) }

theorem transferBuild_inside {index : ℕ} {desc : ℕ → XdmaDesc}
    (lt : index < engine.transferDescMax request) :
    (engine.transferBuild request desc).2 (engine.descIdx + index) =
      engine.buildDesc (engine.stateAt request index)
        ((engine.transferBlocks request).getD index ⟨0, 0⟩) (desc (engine.descIdx + index)) := by
  have inBlocks : index < (engine.transferBlocks request).length := by
    rwa [length_transferBlocks]
  rw [← @List.getElem_eq_getD _ _ _ inBlocks]
  exact swept_inside inBlocks

theorem transferBuild_outside {other : ℕ} {desc : ℕ → XdmaDesc}
    (outside : other < engine.descIdx ∨
      engine.descIdx + engine.transferDescMax request ≤ other) :
    (engine.transferBuild request desc).2 other = desc other :=
  swept_outside (by rwa [length_transferBlocks])

/-- The descriptors of the transfer before their numbers of adjacent ones are filled in. -/
def linkedDescs (engine : DescEngine) (request : XdmaRequest) : ℕ → XdmaDesc :=
  let first : ℕ := engine.descIdx
  let descMax := engine.transferDescMax request
  engine.setControls first descMax (engine.transferBuild request
    (transferDescInit first (engine.descAddr first) descMax engine.desc)).2

theorem linkedDescs_inside {index : ℕ} (lt : index < engine.transferDescMax request) :
    engine.linkedDescs request (engine.descIdx + index) = engine.filledDesc request index := by
  rw [linkedDescs, setControls_inside lt, transferBuild_inside lt, transferDescInit_inside lt]
  · rfl
  · intro index lt
    rw [transferBuild_inside lt, transferDescInit_inside lt, control_buildDesc]
    rfl

/-- The descriptors of other transfers are left alone. -/
theorem desc_transferInit_outside (pending : request.swDescIdx < request.swDescCnt) {other : ℕ}
    (outside : other < engine.descIdx ∨
      engine.descIdx + engine.transferDescMax request ≤ other) :
    (engine.transferInit request).1.desc other = engine.desc other := by
  have nonempty := engine.transferDescMax_pos pending
  simp only [transferInit]
  rw [setAdjacent_outside outside, setControls_outside nonempty outside,
    transferBuild_outside outside, transferDescInit_outside nonempty outside]

/-! ## What the engine reads -/

/-- The descriptor at a bus address. -/
def fetch (engine : DescEngine) (addr : UInt64) : Option XdmaDesc :=
  let offset := (addr - engine.mem.bus).toNat
  if XdmaDesc.size ∣ offset ∧ offset / XdmaDesc.size < engine.mem.max then
    some (engine.desc (offset / XdmaDesc.size))
  else none

/-- The descriptors that the engine works off when it is started at a bus address. -/
def read (engine : DescEngine) (addr : UInt64) : Option (List XdmaDesc) :=
  Chain.follow engine.fetch XdmaDesc.next XdmaDesc.stops engine.mem.max addr

theorem fetch_descAddr {index : ℕ} (lt : index < engine.mem.max) :
    engine.fetch (engine.descAddr index) = some (engine.desc index) := by
  have max_le := engine.mem.max_le
  have offset : (engine.descAddr index - engine.mem.bus).toNat = XdmaDesc.size * index := by
    rw [descAddr, bytesAfter, UInt64.add_comm, UInt64.add_sub_cancel,
      UInt64.toNat_ofNat_of_lt' (by simp only [XdmaDesc.size, UInt64.size]; omega)]
  have place : XdmaDesc.size * index / XdmaDesc.size = index :=
    Nat.mul_div_cancel_left index (by decide)
  simp only [fetch]
  rw [offset, place, if_pos ⟨Nat.dvd_mul_right .., lt⟩]

/-- Descriptors that are linked one to the next, the last of which stops the engine. -/
theorem read_chain {first count : ℕ} (pos : 0 < count) (inMem : first + count ≤ engine.mem.max)
    (next : ∀ index, index + 1 < count →
      (engine.desc (first + index)).next = engine.descAddr (first + (index + 1)))
    (stops : ∀ index < count,
      (engine.desc (first + index)).stops = decide (index + 1 = count)) :
    engine.read (engine.descAddr first) =
      some ((List.range count).map fun index => engine.desc (first + index)) := by
  rcases Nat.exists_eq_succ_of_ne_zero pos.ne' with ⟨last, rfl⟩
  refine Chain.follow_eq (fun index => engine.descAddr (first + index))
    (fun index le => engine.fetch_descAddr (by omega)) (fun index lt => next index (by omega))
    (fun index lt => ?_) ?_ (by omega)
  · rw [stops index (by omega)]
    exact decide_eq_false (by omega)
  · rw [stops last (Nat.lt_succ_self last)]
    exact decide_eq_true rfl

/-- Descriptors of the ring whose numbers of adjacent ones are not filled in yet: each is linked to
the next one, and the flags of the last one stop the engine. -/
structure Linked (engine : DescEngine) (first count : ℕ) (flags : ℕ → UInt32)
    (desc : ℕ → XdmaDesc) : Prop where
  inMem : first + count ≤ engine.mem.max
  transfer : ∀ index < count, flags index ∈ transferFlags
  control : ∀ index < count, (desc (first + index)).control = descMagic ||| flags index
  stops : ∀ index < count, flags index &&& xdmaDescStopped ≠ 0 ↔ index + 1 = count
  next : ∀ index, index + 1 < count →
    (desc (first + index)).next = engine.descAddr (first + (index + 1))

/-- The same descriptors with their numbers of adjacent ones. -/
def Adjacent (engine : DescEngine) (first count : ℕ) (desc : ℕ → XdmaDesc) : Prop :=
  ∀ index < count, engine.desc (first + index) = setAdjacent first count desc (first + index)

section Linked

variable {first count : ℕ} {flags : ℕ → UInt32} {desc : ℕ → XdmaDesc}

theorem Linked.of_mem {engine' : DescEngine} (linked : engine.Linked first count flags desc)
    (mem : engine'.mem = engine.mem) : engine'.Linked first count flags desc where
  inMem := mem ▸ linked.inMem
  transfer := linked.transfer
  control := linked.control
  stops := linked.stops
  next index inside := by
    rw [linked.next index inside, descAddr, descAddr, mem]

theorem Linked.filled (linked : engine.Linked first count flags desc)
    (adjacent : engine.Adjacent first count desc) {index : ℕ} (lt : index < count) :
    (engine.desc (first + index)).Filled (flags index)
      (xdmaGetNextAdj (UInt32.ofNat (count - index - 1)) (desc (first + index)).nextLo) := by
  rw [adjacent index lt, setAdjacent_inside lt]
  exact xdmaDescAdjacent_filled (linked.transfer index lt) (linked.control index lt)
    (xdmaGetNextAdj_lt _ _)

/-- The engine finds the descriptors, one after another. -/
theorem Linked.read (linked : engine.Linked first count flags desc)
    (adjacent : engine.Adjacent first count desc) (pos : 0 < count) :
    engine.read (engine.descAddr first) =
      some ((List.range count).map fun index => engine.desc (first + index)) := by
  refine read_chain pos linked.inMem (fun index inside => ?_) (fun index lt => ?_)
  · have lt := Nat.lt_of_succ_lt inside
    rw [adjacent index lt, setAdjacent_inside lt]
    exact linked.next index inside
  · rw [(linked.filled adjacent lt).stops]
    exact decide_eq_decide.mpr (linked.stops index lt)

/-- Descriptors are read together only with others of the chain, and from one block of 64. -/
theorem Linked.adjacent (linked : engine.Linked first count flags desc)
    (adjacent : engine.Adjacent first count desc) {index : ℕ}
    (inside : index + 1 < count) :
    index + 1 + (engine.desc (first + index)).adjacent < count ∧
      (first + index + 1) % 64 + (engine.desc (first + index)).adjacent < 64 := by
  have max_le := engine.mem.max_le
  have inMem := linked.inMem
  have inSpace := engine.mem.inSpace
  rcases engine.mem.aligned with ⟨page, bus_eq⟩
  simp only [XdmaDesc.size] at inSpace
  have lo : (desc (first + index)).nextLo.toNat % 2048 = 32 * (first + (index + 1)) % 2048 := by
    have next := congrArg pciDmaL (linked.next index inside)
    rw [XdmaDesc.next, pciDmaL_joinWords] at next
    rw [next, toNat_pciDmaL, descAddr, bytesAfter, UInt64.toNat_add,
      UInt64.toNat_ofNat_of_lt' (by simp only [XdmaDesc.size, UInt64.size]; omega)]
    simp only [XdmaDesc.size]
    omega
  have few : (UInt32.ofNat (count - index - 1)).toNat = count - index - 1 :=
    UInt32.toNat_ofNat_of_lt' (by simp only [UInt32.size]; omega)
  rw [(linked.filled adjacent (Nat.lt_of_succ_lt inside)).adjacent, toNat_xdmaGetNextAdj, lo, few]
  split <;> omega

/-- Filling in the numbers of adjacent descriptors does not change the moves. -/
theorem Linked.moves (adjacent : engine.Adjacent first count desc) :
    ((List.range count).map fun index => engine.desc (first + index)).map XdmaDesc.move =
      (List.range count).map fun index => (desc (first + index)).move := by
  rw [List.map_map]
  refine List.map_congr_left fun index index_mem => ?_
  have lt := List.mem_range.mp index_mem
  rw [Function.comp_apply, adjacent index lt, setAdjacent_inside lt]
  rfl

/-- What the engine finds when it is started at the first descriptor: what it is to move, and what
it reads together belongs to the chain. -/
theorem Linked.chain (linked : engine.Linked first count flags desc)
    (adjacent : engine.Adjacent first count desc) (pos : 0 < count) :
    ∃ chain, engine.read (engine.descAddr first) = some chain ∧ chain.length = count ∧
      (chain.map XdmaDesc.move = (List.range count).map fun index => (desc (first + index)).move) ∧
      (∀ desc ∈ chain, desc.HasMagic) ∧
      ∀ index desc, chain[index]? = some desc → index + 1 < chain.length →
        index + 1 + desc.adjacent < chain.length := by
  refine ⟨_, linked.read adjacent pos, by simp, moves adjacent, ?_, ?_⟩
  · intro desc desc_mem
    rcases List.mem_map.mp desc_mem with ⟨index, index_mem, rfl⟩
    exact (linked.filled adjacent (List.mem_range.mp index_mem)).hasMagic
  · intro index desc found inside
    rw [List.length_map, List.length_range] at inside ⊢
    rw [List.getElem?_map, List.getElem?_range (by omega), Option.map_some] at found
    cases found
    exact (linked.adjacent adjacent inside).1

end Linked

theorem nextInChain_eq {count index : ℕ} (inside : index + 1 < count) :
    nextInChain (engine.descAddr engine.descIdx) count index =
      engine.descAddr (engine.descIdx + (index + 1)) := by
  rw [nextInChain, if_pos inside, descAddr, descAddr, bytesAfter_bytesAfter, ← Nat.mul_add]

theorem next_filledDesc (index : ℕ) : (engine.filledDesc request index).next =
    nextInChain (engine.descAddr engine.descIdx) (engine.transferDescMax request) index := by
  have chained : (chainedDesc (nextInChain (engine.descAddr engine.descIdx)
      (engine.transferDescMax request) index) (engine.desc (engine.descIdx + index))).next = _ :=
    joinWords_split _
  rw [← chained]
  exact next_buildDesc

/-- Only the flags of the last descriptor of a transfer stop the engine. -/
theorem descFlags_stops (isLast : Bool) :
    engine.descFlags isLast &&& xdmaDescStopped ≠ 0 ↔ isLast = true := by
  rw [descFlags]
  cases isLast with
  | true =>
      rw [if_pos rfl]
      decide
  | false =>
      rw [if_neg Bool.false_ne_true]
      split <;> decide

theorem linked_transferInit : (engine.transferInit request).1.Linked engine.descIdx
    (engine.transferDescMax request)
    (fun index => engine.descFlags (index + 1 = engine.transferDescMax request))
    (engine.linkedDescs request) where
  inMem := transferDescMax_le
  transfer _ _ := engine.descFlags_transfer _
  control index lt := by
    rw [linkedDescs_inside lt]
    rfl
  stops index lt := by rw [descFlags_stops, decide_eq_true_iff]
  next index inside := by
    rw [linkedDescs_inside (Nat.lt_of_succ_lt inside), next_filledDesc, nextInChain_eq inside]
    rfl

theorem adjacent_transferInit : (engine.transferInit request).1.Adjacent engine.descIdx
    (engine.transferDescMax request) (engine.linkedDescs request) := fun _ _ => rfl

/-- The moves of a transfer are those of the next blocks of the request. -/
theorem moves_linkedDescs :
    ((List.range (engine.transferDescMax request)).map fun index =>
        (engine.linkedDescs request (engine.descIdx + index)).move) =
      engine.blockMoves ⟨request.epAddr, 0, engine.resBus⟩ (engine.transferBlocks request) := by
  rw [blockMoves_eq, length_transferBlocks]
  refine List.map_congr_left fun index index_mem => ?_
  rw [linkedDescs_inside (List.mem_range.mp index_mem)]
  exact move_buildDesc

/-- The engine that is started at a new transfer finds a chain of descriptors in it, which make the
moves of the next blocks of the request, and stops at the last one. What it reads together belongs
to the transfer. The descriptors of other transfers are left alone. -/
theorem transferInit_chain (pending : request.swDescIdx < request.swDescCnt) :
    ∃ chain, (engine.transferInit request).1.read (engine.transferInit request).2.2.descBus =
        some chain ∧
      chain.map XdmaDesc.move =
        engine.blockMoves ⟨request.epAddr, 0, engine.resBus⟩ (engine.transferBlocks request) ∧
      (∀ desc ∈ chain, desc.HasMagic) ∧
      (∀ index desc, chain[index]? = some desc → index + 1 < chain.length →
        index + 1 + desc.adjacent < chain.length) ∧
      ∀ other, other < engine.descIdx ∨ engine.descIdx + chain.length ≤ other →
        (engine.transferInit request).1.desc other = engine.desc other := by
  rcases linked_transferInit.chain adjacent_transferInit (engine.transferDescMax_pos pending) with
    ⟨chain, read, length, moves, magic, adjacent⟩
  refine ⟨chain, read, moves.trans moves_linkedDescs, magic, adjacent, fun other outside => ?_⟩
  exact desc_transferInit_outside pending (length ▸ outside)

/-- An engine with room for three descriptors. -/
def ringOfThree (first : Fin 3) : DescEngine where
  dir := .toDevice
  streaming := false
  nonIncrAddr := false
  eopFlush := false
  mem := ⟨0x10000, 3, by decide, by decide, by decide, by decide⟩
  desc := fun _ => XdmaDesc.zero
  cyclicResult := fun _ => ⟨0, 0⟩
  cyclicResultBus := 0
  descIdx := first
  descUsed := 0

def threeBlocks : XdmaRequest where
  epAddr := 0x80
  totalLen := 12
  swDescIdx := 0
  sdesc := [⟨0x1000, 4⟩, ⟨0x5000, 6⟩, ⟨0x9000, 2⟩]

/-- Two of three blocks fit in front of the end of the ring. -/
theorem transferInit_chain_threeBlocks :
    let engine := ringOfThree 1
    (∃ chain, (engine.transferInit threeBlocks).1.read
        (engine.transferInit threeBlocks).2.2.descBus = some chain ∧
      chain.map XdmaDesc.move =
        engine.blockMoves ⟨0x80, 0, engine.resBus⟩ (engine.transferBlocks threeBlocks) ∧
      (∀ desc ∈ chain, desc.HasMagic) ∧
      (∀ index desc, chain[index]? = some desc → index + 1 < chain.length →
        index + 1 + desc.adjacent < chain.length) ∧
      ∀ other, other < engine.descIdx ∨ engine.descIdx + chain.length ≤ other →
        (engine.transferInit threeBlocks).1.desc other = engine.desc other) ∧
      engine.blockMoves ⟨0x80, 0, engine.resBus⟩ (engine.transferBlocks threeBlocks) =
        [⟨0x1000, 0x80, 4⟩, ⟨0x5000, 0x84, 6⟩] :=
  ⟨transferInit_chain (by decide), by decide +kernel⟩

/-! ## The bytes of a transfer -/

section Bytes

variable {state : BuildState} {blocks : List SwDesc}

theorem epAddr_foldl_buildNext (incr : engine.nonIncrAddr = false) :
    (blocks.foldl engine.buildNext state).epAddr =
      bytesAfter state.epAddr (blocks.map fun block => block.len.toNat).sum := by
  induction blocks generalizing state with
  | nil => exact (bytesAfter_zero _).symm
  | cons block blocks ih =>
      have first : (engine.buildNext state block).epAddr =
          bytesAfter state.epAddr block.len.toNat := if_neg (by simp [incr])
      rw [List.foldl_cons, ih, first, bytesAfter_bytesAfter, List.map_cons, List.sum_cons]

theorem len_foldl_buildNext
    (fits : state.len.toNat + (blocks.map fun block => block.len.toNat).sum < 2 ^ 32) :
    (blocks.foldl engine.buildNext state).len.toNat =
      state.len.toNat + (blocks.map fun block => block.len.toNat).sum := by
  induction blocks generalizing state with
  | nil => rfl
  | cons block blocks ih =>
      rw [List.map_cons, List.sum_cons] at fits ⊢
      have first : (engine.buildNext state block).len.toNat =
          state.len.toNat + block.len.toNat := by
        rw [buildNext, UInt32.toNat_add, Nat.mod_eq_of_lt (by omega)]
      rw [List.foldl_cons, ih (by omega), first, Nat.add_assoc]

/-- The moves of blocks carry byte after byte between the buffer and the device. -/
theorem bytes_blockMoves (plain : ¬ engine.WritesResults) (incr : engine.nonIncrAddr = false) :
    (engine.blockMoves state blocks).flatMap DescMove.bytes =
      carried engine.dir state.epAddr (blocks.flatMap SwDesc.addrs) := by
  induction blocks generalizing state with
  | nil => rfl
  | cons block blocks ih =>
      have first : (engine.buildNext state block).epAddr =
          bytesAfter state.epAddr block.addrs.length := by
        rw [block.length_addrs]
        exact if_neg (by simp [incr])
      rw [blockMoves, List.flatMap_cons, List.flatMap_cons, ih, first, carried_append, blockMove,
        if_neg plain, bytes_between]

end Bytes

end DescEngine

end Acai
