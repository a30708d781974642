import Acai.Engine.Submit

/-!
# Transfers to a window of the device

`xdma_xfer_aperture` moves a scatterlist to or from a window of the device: behind its
last byte comes its first one again. It cuts the entries of the list while it fills in
the descriptors, at the end of an entry, at the end of the window, and at the size that
a descriptor can hold, and goes on until the ring is full or the list is at its end.

The descriptors of a transfer move byte after byte from where the request points to,
around the window (`MovesAround`). The addresses of the window are computed in 64 bits,
which is why it must not lie at their end.
-/

namespace Acai

/-- The part of `struct xdma_request_cb` that a transfer to a window is made from. -/
structure ApertureRequest where
  epAddr : UInt64
  aperture : UInt32
  totalLen : UInt32
  offset : UInt32
  /-- The entries from `sg` on. -/
  sg : List DmaEntry
  sgIdx : ℕ
  sgOffset : UInt32

/-- What the loops that fill in the descriptors work on. -/
structure FillState where
  desc : ℕ → XdmaDesc
  descIdx : ℕ
  epAddr : UInt64
  offset : UInt32
  sgOffset : UInt32
  /-- `xfer->len` -/
  len : UInt32

namespace ApertureRequest

variable (request : ApertureRequest)

def epAddrMax : UInt64 := request.epAddr + request.aperture.toUInt64 - 1

section Filling

variable (dir : DmaDirection) (blenMax : DescBlenMax)

/-- One iteration of the inner loop: the length of the descriptor, and the state behind it. -/
def fillDesc (addr : UInt64) (tlen : UInt32) (state : FillState) : UInt32 × FillState :=
  let len := min tlen (min request.aperture blenMax.val)
  let epAddr := if request.epAddrMax < state.epAddr then request.epAddr else state.epAddr
  let len := if request.epAddrMax < epAddr + len.toUInt64 then
    (request.epAddrMax - epAddr + 1).toUInt32 else len
  (len,
    { desc := Function.update state.desc state.descIdx
        (xdmaDescSet (state.desc state.descIdx) addr epAddr len dir)
      descIdx := state.descIdx + 1
      epAddr := epAddr + len.toUInt64
      offset := state.offset + len
      sgOffset := state.sgOffset + len
      len := state.len + len })

/-- The inner loop, for an entry and the room that is left in the ring: the bytes of the entry that
are left, and the state. -/
def fillEntry : ℕ → UInt64 → UInt32 → FillState → UInt32 × FillState
  | 0, _, tlen, state => (tlen, state)
  | room + 1, addr, tlen, state =>
      if tlen = 0 then (tlen, state)
      else
        let (len, state) := request.fillDesc dir blenMax addr tlen state
        fillEntry room (addr + len.toUInt64) (tlen - len) state

/-- The outer loop. The entry `i` of the list is taken to be the first one of `sg`. -/
def fillSgl (sgMax descMax : ℕ) : List DmaEntry → ℕ → FillState → ℕ × FillState
  | [], i, state => (i, state)
  | entry :: sg, i, state =>
      if i < sgMax ∧ state.descIdx < descMax then
        let (tlen, state) := request.fillEntry dir blenMax (descMax - state.descIdx)
          (entry.addr + state.sgOffset.toUInt64) (entry.len - state.sgOffset) state
        if tlen = 0 then fillSgl sgMax descMax sg (i + 1) { state with sgOffset := 0 }
        else (i, state)
      else (i, state)

end Filling

end ApertureRequest

/-- A descriptor of the linked list. -/
def linkedDesc (next : UInt64) (control : UInt32) (desc : XdmaDesc) : XdmaDesc :=
  { desc with nextLo := pciDmaL next, nextHi := pciDmaH next, control := control }

/-- The linked list of the descriptors, of which there is one at least. -/
def linkDescs (first : ℕ) (descBus : UInt64) (count : ℕ) (desc : ℕ → XdmaDesc) : ℕ → XdmaDesc :=
  let linked := swept (fun bus _ => linkedDesc (bytesAfter bus XdmaDesc.size) descMagic)
    (fun bus _ => bytesAfter bus XdmaDesc.size) (List.range (count - 1)) first descBus desc
  let last := first + (count - 1)
  Function.update linked last (linkedDesc 0 (descMagic ||| endFlags) (linked last))

namespace DescEngine

variable (engine : DescEngine) (request : ApertureRequest) (blenMax : DescBlenMax) (sgMax : ℕ)

/-- The state before the first descriptor of a transfer. -/
def fillStart : FillState where
  desc := engine.desc
  descIdx := engine.descIdx
  epAddr := request.epAddr + (request.offset &&& (request.aperture - 1)).toUInt64
  offset := request.offset
  sgOffset := request.sgOffset
  len := 0

/-- The index of the entry that the transfer ends in, and the state behind its descriptors. -/
def filled : ℕ × FillState :=
  request.fillSgl engine.dir blenMax sgMax engine.mem.max request.sg request.sgIdx
    (engine.fillStart request)

/-- The descriptors of the transfer. -/
def apertureDescs : ℕ := (engine.filled request blenMax sgMax).2.descIdx - engine.descIdx

/-- The loop of `xdma_xfer_aperture` up to `transfer_queue`; `none` if no descriptor has been
filled in. The loop that links them then goes over `desc_cnt - 1` of them, which is 2^32 - 1. -/
def apertureInit : Option (DescEngine × ApertureRequest × XdmaTransfer) :=
  let first : ℕ := engine.descIdx
  let (sgIdx, state) := engine.filled request blenMax sgMax
  let descCnt := engine.apertureDescs request blenMax sgMax
  if descCnt = 0 then none
  else some
    ⟨{ engine with
        desc := setAdjacent first descCnt
          (linkDescs first (engine.descAddr first) descCnt state.desc)
        descIdx := ⟨(first + descCnt) % engine.mem.max, Nat.mod_lt _ engine.mem.max_pos⟩
        descUsed := engine.descUsed + descCnt },
      { request with offset := state.offset, sgIdx := sgIdx, sgOffset := state.sgOffset },
      { dir := engine.dir
        descIndex := first
        descBus := engine.descAddr first
        resBus := engine.resBus
        descAdjacent := descCnt
        descNum := descCnt
        descCmplTh := descCnt
        len := state.len }⟩

end DescEngine

/-! ## The bytes of a window -/

/-- Byte after byte of a buffer, and the bytes of a window from a place on, around and around. -/
def carriedAround (dir : DmaDirection) (epAddr : UInt64) (aperture start : ℕ)
    (addrs : List UInt64) : List (UInt64 × UInt64) :=
  addrs.mapIdx fun index addr =>
    let place := bytesAfter epAddr ((start + index) % aperture)
    if dir = .toDevice then (addr, place) else (place, addr)

section Around

variable {dir : DmaDirection} {epAddr : UInt64} {aperture start : ℕ}

@[simp]
theorem length_carriedAround (addrs : List UInt64) :
    (carriedAround dir epAddr aperture start addrs).length = addrs.length := List.length_mapIdx

theorem carriedAround_append (first second : List UInt64) :
    carriedAround dir epAddr aperture start (first ++ second) =
      carriedAround dir epAddr aperture start first ++
        carriedAround dir epAddr aperture (start + first.length) second := by
  simp only [carriedAround, List.mapIdx_append, Nat.add_comm, Nat.add_left_comm]

theorem carriedAround_congr {start' : ℕ} (same : start % aperture = start' % aperture)
    (addrs : List UInt64) : carriedAround dir epAddr aperture start addrs =
      carriedAround dir epAddr aperture start' addrs := by
  have places : ∀ index, (start + index) % aperture = (start' + index) % aperture :=
    fun index => Nat.ModEq.add_right index same
  simp only [carriedAround, places]

/-- Bytes that do not go around the window. -/
theorem carriedAround_inside {addrs : List UInt64} (inside : start + addrs.length ≤ aperture) :
    carriedAround dir epAddr aperture start addrs =
      carried dir (bytesAfter epAddr start) addrs := by
  refine List.ext_getElem (by simp) fun index first second => ?_
  have lt : start + index < aperture := by
    rw [length_carriedAround] at first
    omega
  simp only [carriedAround, carried, List.getElem_mapIdx, Nat.mod_eq_of_lt lt,
    bytesAfter_bytesAfter]

theorem carriedAround_take (addrs : List UInt64) (count : ℕ) :
    carriedAround dir epAddr aperture start (addrs.take count) =
      (carriedAround dir epAddr aperture start addrs).take count := by
  refine List.ext_getElem (by simp) fun index first second => ?_
  simp [carriedAround]

end Around

/-! ## The bytes that are left of a list -/

theorem bytesAfter_toNat (addr : UInt64) (len : UInt32) :
    bytesAfter addr len.toNat = addr + len.toUInt64 := by
  rw [bytesAfter, UInt64.ofNat_uInt32ToNat]

/-- The bytes of a list without those of its first entry that lie in front of an offset. -/
def restAddrs (sg : List DmaEntry) (sgOffset : UInt32) : List UInt64 :=
  match sg with
  | [] => []
  | entry :: sg =>
      (SwDesc.mk (entry.addr + sgOffset.toUInt64) (entry.len - sgOffset)).addrs ++
        sg.flatMap DmaEntry.addrs

theorem restAddrs_zero (sg : List DmaEntry) : restAddrs sg 0 = sg.flatMap DmaEntry.addrs := by
  cases sg with
  | nil => rfl
  | cons entry sg =>
      have whole : entry.addr + (0 : UInt32).toUInt64 = entry.addr := UInt64.add_zero _
      rw [restAddrs, whole, UInt32.sub_zero]
      rfl

/-- An offset that does not lie behind the first entry. -/
def InFirst (sg : List DmaEntry) (sgOffset : UInt32) : Prop :=
  ∀ entry ∈ sg.head?, sgOffset ≤ entry.len

theorem inFirst_zero (sg : List DmaEntry) : InFirst sg 0 := fun _ _ => UInt32.zero_le

/-- A number of bytes on, still in the first entry. -/
theorem restAddrs_add {entry : DmaEntry} {sg : List DmaEntry} {sgOffset len : UInt32}
    (inFirst : sgOffset ≤ entry.len) (le : len ≤ entry.len - sgOffset) :
    sgOffset + len ≤ entry.len ∧
      restAddrs (entry :: sg) (sgOffset + len) =
        (restAddrs (entry :: sg) sgOffset).drop len.toNat := by
  have entry_lt := entry.len.toNat_lt
  have inFirst' := UInt32.le_iff_toNat_le.mp inFirst
  have left := UInt32.toNat_sub_of_le _ _ inFirst
  have le' := UInt32.le_iff_toNat_le.mp le
  have offset : (sgOffset + len).toNat = sgOffset.toNat + len.toNat := by
    rw [UInt32.toNat_add, Nat.mod_eq_of_lt (by omega)]
  have inFirst_add : sgOffset + len ≤ entry.len := UInt32.le_iff_toNat_le.mpr (by omega)
  refine ⟨inFirst_add, ?_⟩
  have addr : entry.addr + (sgOffset + len).toUInt64 =
      entry.addr + sgOffset.toUInt64 + len.toUInt64 := by
    simp only [← bytesAfter_toNat, bytesAfter_bytesAfter, offset]
  have rest : entry.len - (sgOffset + len) = entry.len - sgOffset - len := by
    refine UInt32.toNat_inj.mp ?_
    rw [UInt32.toNat_sub_of_le _ _ inFirst_add, UInt32.toNat_sub_of_le _ _ le]
    omega
  rw [restAddrs, restAddrs, addr, rest, SwDesc.addrs_split _ le, List.append_assoc,
    List.drop_left' (SwDesc.length_addrs ⟨_, len⟩)]

/-! ## One descriptor -/

namespace ApertureRequest

/-- The window is not empty, and lies before the end of the addresses, with its size to spare. -/
structure InSpace (request : ApertureRequest) : Prop where
  pos : 0 < request.aperture.toNat
  fits : request.epAddr.toNat + 2 * request.aperture.toNat ≤ 2 ^ 64

variable {request : ApertureRequest}

theorem InSpace.toNat_bytesAfter (space : request.InSpace) (place : ℕ)
    (lt : place < 2 * request.aperture.toNat) :
    (bytesAfter request.epAddr place).toNat = request.epAddr.toNat + place := by
  have fits := space.fits
  rw [bytesAfter, UInt64.toNat_add, UInt64.toNat_ofNat', Nat.mod_eq_of_lt (by omega),
    Nat.mod_eq_of_lt (by omega)]

theorem InSpace.toNat_epAddrMax (space : request.InSpace) :
    request.epAddrMax.toNat = request.epAddr.toNat + request.aperture.toNat - 1 := by
  have fits := space.fits
  have pos := space.pos
  have one : (1 : UInt64).toNat = 1 := rfl
  rw [epAddrMax, UInt64.toNat_sub, UInt64.toNat_add, UInt32.toNat_toUInt64, one]
  omega

/-- The address that a descriptor starts at. -/
theorem InSpace.epAddr_wrapped (space : request.InSpace) {place : ℕ}
    (le : place ≤ request.aperture.toNat) :
    (if request.epAddrMax < bytesAfter request.epAddr place then request.epAddr
      else bytesAfter request.epAddr place) =
      bytesAfter request.epAddr (place % request.aperture.toNat) := by
  have pos := space.pos
  have max := space.toNat_epAddrMax
  have here := space.toNat_bytesAfter place (by omega)
  simp only [UInt64.lt_iff_toNat_lt, max, here]
  rcases le.lt_or_eq with inside | atEnd
  · rw [if_neg (by omega), Nat.mod_eq_of_lt inside]
  · rw [if_pos (by omega), atEnd, Nat.mod_self, bytesAfter_zero]

/-- The length of a descriptor: it is not beyond the end of the window. -/
theorem InSpace.len_cut (space : request.InSpace) {place : ℕ}
    (lt : place < request.aperture.toNat) (len : UInt32)
    (le : len.toNat ≤ request.aperture.toNat) :
    (if request.epAddrMax < bytesAfter request.epAddr place + len.toUInt64 then
        (request.epAddrMax - bytesAfter request.epAddr place + 1).toUInt32 else len).toNat =
      min len.toNat (request.aperture.toNat - place) := by
  have fits := space.fits
  have max := space.toNat_epAddrMax
  have here := space.toNat_bytesAfter place (by omega)
  have behind : (bytesAfter request.epAddr place + len.toUInt64).toNat =
      request.epAddr.toNat + place + len.toNat := by
    rw [UInt64.toNat_add, here, UInt32.toNat_toUInt64, Nat.mod_eq_of_lt (by omega)]
  simp only [UInt64.lt_iff_toNat_lt, max, behind]
  split
  · have one : (1 : UInt64).toNat = 1 := rfl
    have aperture_lt := request.aperture.toNat_lt
    rw [UInt64.toNat_toUInt32, UInt64.toNat_add, UInt64.toNat_sub, max, here, one]
    omega
  · omega

/-- The number of bytes that a descriptor can move. -/
def maxlen (request : ApertureRequest) (blenMax : DescBlenMax) : ℕ :=
  min request.aperture.toNat blenMax.val.toNat

/-- An iteration of the inner loop fills in a descriptor in the window. It ends where the entry or
the window does, or moves as many bytes as a descriptor can. -/
theorem InSpace.fillDesc_eq (space : request.InSpace) (dir : DmaDirection)
    (blenMax : DescBlenMax) (addr : UInt64) {tlen : UInt32} {state : FillState} {place : ℕ}
    (le : place ≤ request.aperture.toNat)
    (atPlace : state.epAddr = bytesAfter request.epAddr place) (nonempty : 0 < tlen.toNat) :
    ∃ len : UInt32, 0 < len.toNat ∧ len.toNat ≤ tlen.toNat ∧
      place % request.aperture.toNat + len.toNat ≤ request.aperture.toNat ∧
      (len = tlen ∨ len.toNat = request.maxlen blenMax ∨
        place % request.aperture.toNat + len.toNat = request.aperture.toNat) ∧
      request.fillDesc dir blenMax addr tlen state = (len,
        { desc := Function.update state.desc state.descIdx
            (xdmaDescSet (state.desc state.descIdx) addr
              (bytesAfter request.epAddr (place % request.aperture.toNat)) len dir)
          descIdx := state.descIdx + 1
          epAddr := bytesAfter request.epAddr (place % request.aperture.toNat + len.toNat)
          offset := state.offset + len
          sgOffset := state.sgOffset + len
          len := state.len + len }) := by
  have pos := space.pos
  have blen := blenMax_pos blenMax
  have inWindow := Nat.mod_lt place pos
  have wanted : (min tlen (min request.aperture blenMax.val)).toNat =
      min tlen.toNat (min request.aperture.toNat blenMax.val.toNat) := by
    rw [toNat_min, toNat_min]
  have cut := space.len_cut inWindow (min tlen (min request.aperture blenMax.val)) (by omega)
  simp only [fillDesc, atPlace, space.epAddr_wrapped le]
  generalize (if request.epAddrMax < bytesAfter request.epAddr (place % request.aperture.toNat) +
    (min tlen (min request.aperture blenMax.val)).toUInt64 then _ else _) = len at cut ⊢
  refine ⟨len, by omega, by omega, by omega, ?_, ?_⟩
  · rw [← UInt32.toNat_inj, maxlen]
    omega
  · rw [← bytesAfter_bytesAfter, bytesAfter_toNat]

/-! ## The descriptors of a transfer -/

/-- What the loops have filled in: moves in the window, which carry the bytes that were taken off
the list, from a place of the window on. Some entries of the list are at their end. -/
structure Filling (request : ApertureRequest) (dir : DmaDirection) (blenMax : DescBlenMax)
    (start : ℕ) (initial : FillState) (ended : ℕ) (moves : List DescMove) (taken : List UInt64)
    (state : FillState) : Prop where
  descIdx : state.descIdx = initial.descIdx + moves.length
  inside : ∀ (index : ℕ) (lt : index < moves.length),
    (state.desc (initial.descIdx + index)).move = moves[index]
  outside : ∀ other, other < initial.descIdx ∨ initial.descIdx + moves.length ≤ other →
    state.desc other = initial.desc other
  bytes : moves.flatMap DescMove.bytes =
    carriedAround dir request.epAddr request.aperture.toNat start taken
  few : moves.length ≤ taken.length
  spent : moves.length ≤ ended + taken.length / request.maxlen blenMax +
    (start + taken.length) / request.aperture.toNat
  epAddr : ∃ place ≤ request.aperture.toNat, state.epAddr = bytesAfter request.epAddr place ∧
    place % request.aperture.toNat = (start + taken.length) % request.aperture.toNat
  offset : state.offset = initial.offset + UInt32.ofNat taken.length
  len : state.len = initial.len + UInt32.ofNat taken.length

section Loops

variable {dir : DmaDirection} {blenMax : DescBlenMax} {start ended : ℕ}
  {initial state : FillState} {moves : List DescMove} {taken : List UInt64}

/-- A descriptor more is one more end of an entry or of the window, or one that is full. -/
theorem spent_add {ended' place len : ℕ} (space : request.InSpace)
    (spent : moves.length ≤ ended + taken.length / request.maxlen blenMax +
      (start + taken.length) / request.aperture.toNat)
    (goesOn : place % request.aperture.toNat = (start + taken.length) % request.aperture.toNat)
    (cut : ended < ended' ∨ len = request.maxlen blenMax ∨
      place % request.aperture.toNat + len = request.aperture.toNat) (le : ended ≤ ended') :
    moves.length + 1 ≤ ended' + (taken.length + len) / request.maxlen blenMax +
      (start + (taken.length + len)) / request.aperture.toNat := by
  have pos := space.pos
  have maxlen_pos : 0 < request.maxlen blenMax := lt_min pos (blenMax_pos blenMax)
  have full := @Nat.div_le_div_right taken.length (taken.length + len) (request.maxlen blenMax)
    (Nat.le_add_right _ _)
  have around := @Nat.div_le_div_right (start + taken.length) (start + (taken.length + len))
    request.aperture.toNat (by omega)
  rcases cut with atEnd | isFull | atWindowEnd
  · omega
  · rw [isFull, Nat.add_div_right _ maxlen_pos] at full ⊢
    rw [isFull] at around
    omega
  · have next : (start + (taken.length + len)) / request.aperture.toNat =
        (start + taken.length) / request.aperture.toNat + 1 := by
      have here := Nat.div_add_mod (start + taken.length) request.aperture.toNat
      rw [← goesOn] at here
      refine Nat.div_eq_of_lt_le ?_ ?_
      · rw [Nat.add_mul, Nat.mul_comm]
        omega
      · rw [Nat.add_mul, Nat.add_mul, Nat.mul_comm]
        omega
    omega

theorem Filling.fillDesc
    (filling : Filling request dir blenMax start initial ended moves taken state)
    (space : request.InSpace) (addr : UInt64) {tlen : UInt32} (nonempty : 0 < tlen.toNat) :
    let filled := request.fillDesc dir blenMax addr tlen state
    0 < filled.1.toNat ∧ filled.1.toNat ≤ tlen.toNat ∧
      filled.2.sgOffset = state.sgOffset + filled.1 ∧
      ∃ move, Filling request dir blenMax start initial
        (if filled.1 = tlen then ended + 1 else ended) (moves ++ [move])
        (taken ++ (SwDesc.mk addr filled.1).addrs) filled.2 := by
  rcases filling.epAddr with ⟨place, le, atPlace, goesOn⟩
  rcases space.fillDesc_eq dir blenMax addr le atPlace nonempty with
    ⟨len, pos, le_tlen, inWindow, cut, filled⟩
  have length := SwDesc.length_addrs ⟨addr, len⟩
  rw [filled]
  refine ⟨pos, le_tlen, rfl, DescMove.between dir addr
    (bytesAfter request.epAddr (place % request.aperture.toNat)) len, ?_⟩
  constructor
  case descIdx =>
    simp only [filling.descIdx, List.length_append, List.length_singleton, Nat.add_assoc]
  case inside =>
    intro index lt
    simp only [List.length_append, List.length_singleton] at lt
    rcases Nat.lt_succ_iff_lt_or_eq.mp lt with before | rfl
    · rw [List.getElem_append_left before]
      simp only [filling.descIdx]
      rw [Function.update_of_ne (by omega)]
      exact filling.inside index before
    · simp only [List.getElem_append_right le_rfl, Nat.sub_self, List.getElem_cons_zero,
        ← filling.descIdx, Function.update_self]
      exact move_xdmaDescSet ..
  case outside =>
    intro other outside
    simp only [List.length_append, List.length_singleton] at outside
    simp only [filling.descIdx]
    rw [Function.update_of_ne (by omega)]
    exact filling.outside other (by omega)
  case bytes =>
    have next : carriedAround dir request.epAddr request.aperture.toNat (start + taken.length)
        (SwDesc.mk addr len).addrs = carried dir
          (bytesAfter request.epAddr (place % request.aperture.toNat))
          (SwDesc.mk addr len).addrs := by
      rw [← carriedAround_inside (length ▸ inWindow)]
      exact carriedAround_congr (goesOn.symm.trans (Nat.mod_mod place _).symm) _
    rw [List.flatMap_append, List.flatMap_singleton, filling.bytes, carriedAround_append, next]
    exact congrArg _ (bytes_between dir _ ⟨addr, len⟩)
  case few =>
    have few := filling.few
    simp only [List.length_append, List.length_singleton, length]
    omega
  case spent =>
    rw [List.length_append, List.length_append, length]
    refine spent_add space filling.spent goesOn ?_ ?_
    · refine cut.imp_left fun atEnd => ?_
      rw [if_pos atEnd]
      exact Nat.lt_succ_self _
    · split <;> omega
  case epAddr =>
    refine ⟨_, inWindow, rfl, ?_⟩
    rw [List.length_append, length, ← Nat.add_assoc, Nat.add_mod, Nat.mod_mod, goesOn,
      ← Nat.add_mod]
  case offset =>
    simp only [List.length_append, length, filling.offset]
    rw [UInt32.ofNat_add, UInt32.ofNat_toNat, UInt32.add_assoc]
  case len =>
    simp only [List.length_append, length, filling.len]
    rw [UInt32.ofNat_add, UInt32.ofNat_toNat, UInt32.add_assoc]

theorem fillEntry_succ {room : ℕ} {addr : UInt64} {tlen : UInt32} (nonempty : tlen ≠ 0) :
    request.fillEntry dir blenMax (room + 1) addr tlen state =
      request.fillEntry dir blenMax room
        (addr + (request.fillDesc dir blenMax addr tlen state).1.toUInt64)
        (tlen - (request.fillDesc dir blenMax addr tlen state).1)
        (request.fillDesc dir blenMax addr tlen state).2 := if_neg nonempty

/-- The first bytes of an entry are filled in: all of them, or as many as there is room for. -/
theorem Filling.fillEntry
    (filling : Filling request dir blenMax start initial ended moves taken state)
    (space : request.InSpace) (room : ℕ) (addr : UInt64) (tlen : UInt32) :
    let filled := request.fillEntry dir blenMax room addr tlen state
    ∃ count moves' ended', count ≤ tlen.toNat ∧ filled.1.toNat = tlen.toNat - count ∧
      Filling request dir blenMax start initial ended' (moves ++ moves')
        (taken ++ (SwDesc.mk addr tlen).addrs.take count) filled.2 ∧
      (ended' = ended ∨ ended' = ended + 1 ∧ tlen ≠ 0 ∧ filled.1 = 0) ∧
      filled.2.sgOffset = state.sgOffset + UInt32.ofNat count ∧
      moves'.length ≤ room ∧ (filled.1 = 0 ∨ moves'.length = room) := by
  induction room generalizing addr tlen state moves taken ended with
  | zero =>
      refine ⟨0, [], ended, Nat.zero_le _, rfl, ?_, Or.inl rfl, (UInt32.add_zero _).symm, le_rfl,
        Or.inr rfl⟩
      rw [List.take_zero, List.append_nil, List.append_nil]
      exact filling
  | succ room ih =>
      by_cases empty : tlen = 0
      · subst empty
        refine ⟨0, [], ended, le_rfl, rfl, ?_, Or.inl rfl, (UInt32.add_zero _).symm,
          Nat.zero_le _, Or.inl rfl⟩
        rw [List.take_zero, List.append_nil, List.append_nil]
        exact filling
      have nonempty : 0 < tlen.toNat :=
        UInt32.lt_iff_toNat_lt.mp (UInt32.pos_iff_ne_zero.mpr empty)
      rcases filling.fillDesc space addr nonempty with ⟨pos, le, offset, move, filling'⟩
      rw [fillEntry_succ empty]
      generalize request.fillDesc dir blenMax addr tlen state = next at pos le offset filling' ⊢
      rcases next with ⟨len, next⟩
      simp only at pos le offset filling' ⊢
      have le' : len ≤ tlen := UInt32.le_iff_toNat_le.mpr le
      have left : (tlen - len).toNat = tlen.toNat - len.toNat := UInt32.toNat_sub_of_le _ _ le'
      have length : (SwDesc.mk addr len).addrs.length = len.toNat := SwDesc.length_addrs _
      rcases ih filling' (addr + len.toUInt64) (tlen - len) with
        ⟨count, moves', ended', count_le, rest, filled, atEnd, offset', few, ends⟩
      refine ⟨len.toNat + count, move :: moves', ended', by omega, by omega, ?_, ?_, ?_, ?_, ?_⟩
      · rw [SwDesc.addrs_split addr le', ← length, List.take_length_add_append, ← List.append_assoc]
        simpa using filled
      · split at atEnd
        · rename_i whole
          subst whole
          have none : (len - len).toNat = 0 := left.trans (Nat.sub_self _)
          refine Or.inr ⟨atEnd.resolve_right fun more => more.2.1 (UInt32.sub_self _), empty, ?_⟩
          exact UInt32.toNat_inj.mp (rest.trans (by rw [none, Nat.zero_sub]; rfl))
        · exact atEnd.imp_right fun more => ⟨more.1, empty, more.2.2⟩
      · rw [offset', offset, UInt32.add_assoc, UInt32.ofNat_add, UInt32.ofNat_toNat]
      · exact Nat.succ_le_succ few
      · exact ends.imp_right (congrArg Nat.succ)

/-- The list from an entry on, with an offset into it, that is left after some bytes of another. -/
structure LeftOf (sg : List DmaEntry) (sgOffset : UInt32) (count : ℕ) (left : List DmaEntry)
    (offset : UInt32) : Prop where
  inFirst : InFirst left offset
  rest : restAddrs left offset = (restAddrs sg sgOffset).drop count

theorem Filling.sgOffset
    (filling : Filling request dir blenMax start initial ended moves taken state)
    (sgOffset : UInt32) :
    Filling request dir blenMax start initial ended moves taken
      { state with sgOffset := sgOffset } :=
  ⟨filling.descIdx, filling.inside, filling.outside, filling.bytes, filling.few, filling.spent,
    filling.epAddr, filling.offset, filling.len⟩

theorem fillSgl_cons {sgMax descMax i : ℕ} {entry : DmaEntry} {sg : List DmaEntry}
    (goesOn : i < sgMax ∧ state.descIdx < descMax) :
    let filled := request.fillEntry dir blenMax (descMax - state.descIdx)
      (entry.addr + state.sgOffset.toUInt64) (entry.len - state.sgOffset) state
    request.fillSgl dir blenMax sgMax descMax (entry :: sg) i state =
      if filled.1 = 0 then
        request.fillSgl dir blenMax sgMax descMax sg (i + 1) { filled.2 with sgOffset := 0 }
      else (i, filled.2) := if_pos goesOn

/-- The first bytes of what is left of a list are filled in: all of them, or as many as there is
room for. The loop stops where it can go on. -/
structure SglFilled (request : ApertureRequest) (dir : DmaDirection) (blenMax : DescBlenMax)
    (start : ℕ) (initial : FillState) (descMax ended : ℕ) (taken : List UInt64)
    (sg : List DmaEntry) (sgOffset : UInt32) (i count : ℕ) (filled : ℕ × FillState) : Prop where
  filling : ∃ moves, ∃ ended' ≤ ended + sg.length,
    (ended' < ended + sg.length ∨ count = (restAddrs sg sgOffset).length) ∧
    Filling request dir blenMax start initial ended' moves
      (taken ++ (restAddrs sg sgOffset).take count) filled.2
  inRing : filled.2.descIdx ≤ descMax
  ends : filled.2.descIdx = descMax ∨ count = (restAddrs sg sgOffset).length
  le : count ≤ (restAddrs sg sgOffset).length
  entry : i ≤ filled.1
  left : InFirst sg sgOffset →
    LeftOf sg sgOffset count (sg.drop (filled.1 - i)) filled.2.sgOffset

/-- The loop is at its end before the next entry. -/
theorem Filling.sgl_stop
    (filling : Filling request dir blenMax start initial ended moves taken state)
    {descMax : ℕ} (room : state.descIdx ≤ descMax) {sg : List DmaEntry} (i : ℕ)
    (stops : state.descIdx = descMax ∨ sg = []) :
    SglFilled request dir blenMax start initial descMax ended taken sg state.sgOffset i 0
      (i, state) where
  filling := by
    refine ⟨moves, ended, Nat.le_add_right _ _, ?_, by simpa using filling⟩
    cases sg with
    | nil => exact Or.inr rfl
    | cons entry sg => exact Or.inl (Nat.lt_add_of_pos_right (Nat.succ_pos _))
  inRing := room
  ends := stops.imp_right fun none => by rw [none, restAddrs, List.length_nil]
  le := Nat.zero_le _
  entry := le_rfl
  left inFirst := by
    rw [Nat.sub_self, List.drop_zero]
    exact ⟨inFirst, rfl⟩

/-- The whole entry is filled in, and the loop goes on. -/
theorem SglFilled.entry_done {descMax ended' i count : ℕ} {sg : List DmaEntry} {entry : DmaEntry}
    {sgOffset : UInt32} {filled : ℕ × FillState} (ended_le : ended' ≤ ended + 1)
    (rest : SglFilled request dir blenMax start initial descMax ended'
      (taken ++ (SwDesc.mk (entry.addr + sgOffset.toUInt64) (entry.len - sgOffset)).addrs)
      sg 0 (i + 1) count filled) :
    SglFilled request dir blenMax start initial descMax ended taken (entry :: sg) sgOffset i
      ((entry.len - sgOffset).toNat + count) filled := by
  have length := SwDesc.length_addrs ⟨entry.addr + sgOffset.toUInt64, entry.len - sgOffset⟩
  simp only at length
  rcases rest with ⟨⟨moves, ended'', few, more, filling⟩, inRing, ends, le, after, left⟩
  rw [restAddrs_zero] at filling ends le more
  constructor
  case filling =>
    refine ⟨moves, ended'', ?_, ?_, ?_⟩
    · rw [List.length_cons]
      omega
    · rw [restAddrs, List.length_append, length, List.length_cons]
      omega
    · rw [restAddrs, ← length, List.take_length_add_append, ← List.append_assoc]
      exact filling
  case inRing => exact inRing
  case ends =>
    rw [restAddrs, List.length_append, length]
    exact ends.imp_right (congrArg _)
  case le =>
    rw [restAddrs, List.length_append, length]
    exact Nat.add_le_add_left le _
  case entry => exact Nat.le_of_succ_le after
  case left =>
    intro _
    rcases left (inFirst_zero sg) with ⟨inFirst, rest⟩
    rw [show filled.1 - i = filled.1 - (i + 1) + 1 by omega, List.drop_succ_cons]
    refine ⟨inFirst, ?_⟩
    rw [rest, restAddrs_zero, restAddrs, ← length, List.drop_length_add_append]

/-- The ring is full before the entry is at its end. -/
theorem Filling.entry_cut {descMax i count : ℕ} {sg : List DmaEntry} {entry : DmaEntry}
    {sgOffset : UInt32} (full : state.descIdx = descMax)
    (le : count ≤ (entry.len - sgOffset).toNat)
    (offset : state.sgOffset = sgOffset + UInt32.ofNat count)
    (filling : Filling request dir blenMax start initial ended moves (taken ++ (SwDesc.mk
      (entry.addr + sgOffset.toUInt64) (entry.len - sgOffset)).addrs.take count) state) :
    SglFilled request dir blenMax start initial descMax ended taken (entry :: sg) sgOffset i count
      (i, state) := by
  have length := SwDesc.length_addrs ⟨entry.addr + sgOffset.toUInt64, entry.len - sgOffset⟩
  simp only at length
  constructor
  case filling =>
    refine ⟨moves, ended, Nat.le_add_right _ _,
      Or.inl (Nat.lt_add_of_pos_right (Nat.succ_pos _)), ?_⟩
    rw [restAddrs, List.take_append_of_le_length (le.trans length.ge)]
    exact filling
  case inRing => exact full.le
  case ends => exact Or.inl full
  case le =>
    rw [restAddrs, List.length_append, length]
    exact Nat.le_add_right_of_le le
  case entry => exact le_rfl
  case left =>
    intro inFirst
    have left_lt := (entry.len - sgOffset).toNat_lt
    have count_eq : (UInt32.ofNat count).toNat = count :=
      UInt32.toNat_ofNat_of_lt' (by simp only [UInt32.size]; omega)
    have rest := @restAddrs_add entry sg sgOffset (UInt32.ofNat count)
      (inFirst entry rfl) (UInt32.le_iff_toNat_le.mpr (count_eq.le.trans le))
    rw [count_eq] at rest
    rw [Nat.sub_self, List.drop_zero, offset]
    refine ⟨fun first same => ?_, rest.2⟩
    cases same
    exact rest.1

theorem Filling.fillSgl
    (filling : Filling request dir blenMax start initial ended moves taken state)
    (space : request.InSpace) (sgMax : ℕ) {descMax : ℕ} (room : state.descIdx ≤ descMax)
    (sg : List DmaEntry) (i : ℕ) :
    ∃ count, SglFilled request dir blenMax start initial descMax ended taken
      (sg.take (sgMax - i)) state.sgOffset i count
      (request.fillSgl dir blenMax sgMax descMax sg i state) := by
  induction sg generalizing i state ended moves taken with
  | nil =>
      rw [List.take_nil]
      exact ⟨0, filling.sgl_stop room i (Or.inr rfl)⟩
  | cons entry sg ih =>
      by_cases goesOn : i < sgMax ∧ state.descIdx < descMax
      case neg =>
        rw [show request.fillSgl dir blenMax sgMax descMax (entry :: sg) i state = (i, state) from
          if_neg goesOn]
        refine ⟨0, filling.sgl_stop room i ?_⟩
        by_cases full : state.descIdx = descMax
        · exact Or.inl full
        · rw [Nat.sub_eq_zero_of_le (by omega), List.take_zero]
          exact Or.inr rfl
      case pos =>
        rw [fillSgl_cons goesOn, show sgMax - i = sgMax - (i + 1) + 1 by omega,
          List.take_succ_cons]
        rcases filling.fillEntry space (descMax - state.descIdx)
          (entry.addr + state.sgOffset.toUInt64) (entry.len - state.sgOffset) with
          ⟨count, moves', ended', le, left, filled, atEnd, offset, few, ends⟩
        have idx' := filled.descIdx
        have idx := filling.descIdx
        rw [List.length_append] at idx'
        split
        · rename_i done
          rw [done, UInt32.toNat_zero] at left
          rw [List.take_of_length_le (by rw [SwDesc.length_addrs]; simp only; omega)] at filled
          have room' : (request.fillEntry dir blenMax (descMax - state.descIdx)
              (entry.addr + state.sgOffset.toUInt64) (entry.len - state.sgOffset)
              state).2.descIdx ≤ descMax := by omega
          rcases ih (filled.sgOffset 0) room' (i + 1) with ⟨count', rest⟩
          exact ⟨_, rest.entry_done (by omega)⟩
        · rename_i notDone
          have full := ends.resolve_left notDone
          obtain rfl := atEnd.resolve_right fun done => notDone done.2.2
          exact ⟨count, filled.entry_cut (by omega) le offset⟩

end Loops

/-- The place in the window that a transfer starts at. -/
def windowPlace (request : ApertureRequest) : ℕ :=
  (request.offset &&& (request.aperture - 1)).toNat

theorem InSpace.windowPlace_lt (space : request.InSpace) :
    request.windowPlace < request.aperture.toNat := by
  have pos := space.pos
  have one : (1 : UInt32).toNat = 1 := rfl
  have mask : (request.aperture - 1).toNat = request.aperture.toNat - 1 := by
    rw [UInt32.toNat_sub_of_le _ _ (UInt32.le_iff_toNat_le.mpr (one.le.trans pos)), one]
  have le := @Nat.and_le_right request.offset.toNat (request.aperture - 1).toNat
  rw [windowPlace, UInt32.toNat_and]
  omega

theorem InSpace.fillStart (space : request.InSpace) (engine : DescEngine)
    (blenMax : DescBlenMax) :
    Filling request engine.dir blenMax request.windowPlace (engine.fillStart request) 0 [] []
      (engine.fillStart request) where
  descIdx := rfl
  inside _ lt := absurd lt (Nat.not_lt_zero _)
  outside _ _ := rfl
  bytes := rfl
  few := le_rfl
  spent := Nat.zero_le _
  epAddr := ⟨request.windowPlace, space.windowPlace_lt.le, (bytesAfter_toNat ..).symm, rfl⟩
  offset := (UInt32.add_zero _).symm
  len := (UInt32.add_zero _).symm

/-- The bytes of the list that a request has not come to. -/
def left (request : ApertureRequest) (sgMax : ℕ) : List UInt64 :=
  restAddrs (request.sg.take (sgMax - request.sgIdx)) request.sgOffset

end ApertureRequest

/-! ## The chain of a transfer -/

theorem linkDescs_inside {first count index : ℕ} {descBus : UInt64} {desc : ℕ → XdmaDesc}
    (lt : index < count) : linkDescs first descBus count desc (first + index) =
      linkedDesc (nextInChain descBus count index)
        (descMagic ||| if index + 1 = count then endFlags else 0) (desc (first + index)) := by
  rw [linkDescs, nextInChain]
  by_cases isLast : index + 1 < count
  · have before : index < (List.range (count - 1)).length := by
      rw [List.length_range]
      omega
    rw [Function.update_of_ne (by omega), swept_inside before, foldl_bytesAfter, if_pos isLast,
      if_neg isLast.ne, bytesAfter_bytesAfter, List.length_take_of_le before.le, Nat.mul_succ]
    rfl
  · obtain rfl : index = count - 1 := by omega
    rw [Function.update_self, if_neg isLast, if_pos (by omega), swept_outside (by simp)]

theorem linkDescs_outside {first count other : ℕ} {descBus : UInt64} {desc : ℕ → XdmaDesc}
    (nonempty : 0 < count) (outside : other < first ∨ first + count ≤ other) :
    linkDescs first descBus count desc other = desc other := by
  rw [linkDescs, Function.update_of_ne (by omega), swept_outside]
  rw [List.length_range]
  omega

namespace DescEngine

variable {engine : DescEngine} {request : ApertureRequest} {blenMax : DescBlenMax} {sgMax : ℕ}
  {engine' : DescEngine} {request' : ApertureRequest} {xfer : XdmaTransfer}

theorem linked_linkDescs {first count : ℕ} (inMem : first + count ≤ engine.mem.max)
    (desc : ℕ → XdmaDesc) :
    engine.Linked first count (fun index => if index + 1 = count then endFlags else 0)
      (linkDescs first (engine.descAddr first) count desc) where
  inMem := inMem
  transfer index _ := by
    rw [transferFlags]
    split <;> simp
  control index lt := by
    rw [linkDescs_inside lt]
    rfl
  stops index _ := by
    split
    · rename_i isLast
      exact iff_of_true (by decide) isLast
    · rename_i notLast
      exact iff_of_false (by decide) notLast
  next index inside := by
    rw [linkDescs_inside (Nat.lt_of_succ_lt inside), nextInChain, if_pos inside, descAddr,
      bytesAfter_bytesAfter, ← Nat.mul_add]
    exact joinWords_split _

/-- What a transfer is to its request: the engine that is started at it finds a chain of
descriptors, which move the next bytes of the list to the next ones of the window or the other way,
and nothing else. They are all that is left of the list, or as many as fit into the rest of the
ring. What the engine reads together belongs to the transfer. -/
structure MovesAround (engine : DescEngine) (request : ApertureRequest) (blenMax : DescBlenMax)
    (sgMax : ℕ) (engine' : DescEngine) (request' : ApertureRequest) (xfer : XdmaTransfer)
    (chain : List XdmaDesc) (count : ℕ) : Prop where
  read : engine'.read xfer.descBus = some chain
  bytes : (chain.map XdmaDesc.move).flatMap DescMove.bytes = carriedAround engine.dir
    request.epAddr request.aperture.toNat request.windowPlace ((request.left sgMax).take count)
  magic : ∀ desc ∈ chain, desc.HasMagic
  adjacent : ∀ index desc, chain[index]? = some desc → index + 1 < chain.length →
    index + 1 + desc.adjacent < chain.length
  outside : ∀ other, other < engine.descIdx ∨ engine.descIdx + chain.length ≤ other →
    engine'.desc other = engine.desc other
  pos : 0 < count
  le : count ≤ (request.left sgMax).length
  ends : engine'.descIdx.val = 0 ∨ count = (request.left sgMax).length
  len : xfer.len = UInt32.ofNat count
  offset : request'.offset = request.offset + UInt32.ofNat count
  /-- A transfer that does not come to the end of the list has used up the rest of the ring. -/
  spent : count = (request.left sgMax).length ∨ engine.mem.max - engine.descIdx <
    request.sg.length + count / request.maxlen blenMax +
      (request.windowPlace + count) / request.aperture.toNat
  entry : request.sgIdx ≤ request'.sgIdx
  next : InFirst (request.sg.take (sgMax - request.sgIdx)) request.sgOffset →
    ApertureRequest.LeftOf (request.sg.take (sgMax - request.sgIdx)) request.sgOffset count
      ((request.sg.take (sgMax - request.sgIdx)).drop (request'.sgIdx - request.sgIdx))
      request'.sgOffset

/-- What `apertureInit` makes of the descriptors that have been filled in. -/
structure ApertureMade (engine : DescEngine) (request : ApertureRequest) (blenMax : DescBlenMax)
    (sgMax : ℕ) (engine' : DescEngine) (request' : ApertureRequest) (xfer : XdmaTransfer) :
    Prop where
  nonempty : engine.apertureDescs request blenMax sgMax ≠ 0
  mem : engine'.mem = engine.mem
  desc : engine'.desc = setAdjacent engine.descIdx (engine.apertureDescs request blenMax sgMax)
    (linkDescs engine.descIdx (engine.descAddr engine.descIdx)
      (engine.apertureDescs request blenMax sgMax) (engine.filled request blenMax sgMax).2.desc)
  descIdx : engine'.descIdx.val =
    (engine.descIdx + engine.apertureDescs request blenMax sgMax) % engine.mem.max
  dir : engine'.dir = engine.dir
  descUsed : engine'.descUsed = engine.descUsed + engine.apertureDescs request blenMax sgMax
  next : request' = { request with
    offset := (engine.filled request blenMax sgMax).2.offset
    sgIdx := (engine.filled request blenMax sgMax).1
    sgOffset := (engine.filled request blenMax sgMax).2.sgOffset }
  descNum : xfer.descNum = engine.apertureDescs request blenMax sgMax
  descBus : xfer.descBus = engine.descAddr engine.descIdx
  len : xfer.len = (engine.filled request blenMax sgMax).2.len

theorem apertureInit_some
    (made : engine.apertureInit request blenMax sgMax = some (engine', request', xfer)) :
    engine.ApertureMade request blenMax sgMax engine' request' xfer := by
  rw [apertureInit] at made
  simp only at made
  split at made
  · cases made
  rename_i nonempty
  cases made
  exact ⟨nonempty, rfl, rfl, rfl, rfl, rfl, rfl, rfl, rfl, rfl⟩

theorem sglFilled (engine : DescEngine) (blenMax : DescBlenMax) (space : request.InSpace)
    (sgMax : ℕ) :
    ∃ count, ApertureRequest.SglFilled request engine.dir blenMax request.windowPlace
      (engine.fillStart request) engine.mem.max 0 [] (request.sg.take (sgMax - request.sgIdx))
      request.sgOffset request.sgIdx count (engine.filled request blenMax sgMax) :=
  (space.fillStart engine blenMax).fillSgl space sgMax engine.descIdx.isLt.le request.sg
    request.sgIdx

theorem isSome_of_apertureDescs (nonempty : engine.apertureDescs request blenMax sgMax ≠ 0) :
    (engine.apertureInit request blenMax sgMax).isSome := by
  rw [apertureInit]
  simp only [if_neg nonempty]
  rfl

/-- There is a transfer as long as something is left of the list. -/
theorem apertureInit_isSome (space : request.InSpace) (more : request.left sgMax ≠ []) :
    (engine.apertureInit request blenMax sgMax).isSome := by
  have idx_lt := engine.descIdx.isLt
  rcases sglFilled engine blenMax space sgMax with
    ⟨count, ⟨moves, ended, -, -, filling⟩, -, ends, le, -⟩
  have idx : (engine.filled request blenMax sgMax).2.descIdx = engine.descIdx + moves.length :=
    filling.descIdx
  refine isSome_of_apertureDescs fun none => ?_
  rw [apertureDescs, idx, Nat.add_sub_cancel_left, List.length_eq_zero_iff] at none
  subst none
  have bytes := congrArg List.length filling.bytes
  have pos := List.length_pos_iff.mpr more
  simp only [List.flatMap_nil, List.length_nil, length_carriedAround, List.nil_append,
    List.length_take_of_le le] at bytes idx
  rcases ends with full | whole
  · omega
  · rw [ApertureRequest.left] at pos
    omega

theorem apertureInit_moves (space : request.InSpace)
    (made : engine.apertureInit request blenMax sgMax = some (engine', request', xfer)) :
    ∃ chain count, engine.MovesAround request blenMax sgMax engine' request' xfer chain count := by
  have made := apertureInit_some made
  rcases sglFilled engine blenMax space sgMax with
    ⟨count, ⟨moves, ended, ended_le, whole, filling⟩, inRing, ends, le, entry, left⟩
  change ApertureRequest.Filling _ _ _ _ _ _ _ ([] ++ (request.left sgMax).take count)
    (engine.filled request blenMax sgMax).2 at filling
  have idx : (engine.filled request blenMax sgMax).2.descIdx = engine.descIdx + moves.length :=
    filling.descIdx
  have descCnt : engine.apertureDescs request blenMax sgMax = moves.length := by
    rw [apertureDescs, idx, Nat.add_sub_cancel_left]
  have inMem : engine.descIdx + moves.length ≤ engine.mem.max := idx ▸ inRing
  have taken : ((request.left sgMax).take count).length = count := List.length_take_of_le le
  have nonempty := made.nonempty
  have desc := made.desc
  rw [descCnt] at nonempty desc
  rw [List.nil_append] at filling
  have linked := linked_linkDescs inMem (engine.filled request blenMax sgMax).2.desc
  rcases (linked.of_mem made.mem).chain (fun index _ => congrFun desc _)
    (Nat.pos_of_ne_zero nonempty) with ⟨chain, read, length, chainMoves, magic, adjacent⟩
  have moves_eq : chain.map XdmaDesc.move = moves := by
    rw [chainMoves]
    refine List.ext_getElem (by simp) fun index _ lt => ?_
    rw [List.getElem_map, List.getElem_range, linkDescs_inside lt]
    exact filling.inside index lt
  refine ⟨chain, count, ?_⟩
  constructor
  case read =>
    rw [made.descBus, ← read, descAddr, descAddr, made.mem]
  case bytes =>
    rw [moves_eq]
    exact filling.bytes
  case magic => exact magic
  case adjacent => exact adjacent
  case outside =>
    intro other outside
    rw [length] at outside
    rw [desc, setAdjacent_outside outside,
      linkDescs_outside (Nat.pos_of_ne_zero nonempty) outside]
    exact filling.outside other outside
  case pos =>
    have few := filling.few
    rw [taken] at few
    omega
  case le => exact le
  case ends =>
    refine ends.imp_left fun full => ?_
    rw [made.descIdx, descCnt, ← idx]
    exact full ▸ Nat.mod_self _
  case len =>
    have len := filling.len
    rw [taken] at len
    rw [made.len, len]
    exact UInt32.zero_add _
  case offset =>
    have offset := filling.offset
    rw [taken] at offset
    rw [made.next]
    exact offset
  case spent =>
    have spent := filling.spent
    rw [taken] at spent
    rcases ends with full | all
    · refine whole.symm.imp_right fun fewer => ?_
      have sgLength := (request.sg.take_sublist (sgMax - request.sgIdx)).length_le
      have full' : engine.descIdx + moves.length = engine.mem.max := idx ▸ full
      omega
    · exact Or.inl all
  case entry => exact made.next ▸ entry
  case next =>
    intro inFirst
    rw [made.next]
    exact left inFirst

end DescEngine

end Acai
