import Acai.Driver.RemoteTransfer

/-!
# The remote mapping of a BAR

The manager passes a mapping of the guest on to the host driver, with the page offset
that the guest asked for. The driver stores the offset in the area of the target
process that holds the given address and maps the BAR of the device there, from that
offset on. Before it does, it makes the page of the address writable, for which the
kernel may split the area: the bounds that are mapped are those after this call.

`bridge_mmap` compares the size of the area with what is left of the BAR behind the
offset. The subtraction wraps around when the offset lies behind the BAR, and the
comparison then lets almost every size through.
-/

namespace Acai

/-- The fields of `struct vm_area_struct` that the driver uses. -/
structure Vma where
  vmStart : UInt64
  vmEnd : UInt64
  vmPgoff : UInt64

/-- A BAR of the device, by the addresses of its first and its last byte. -/
structure Bar where
  start : UInt64
  stop : UInt64
  ordered : start ≤ stop

def Bar.length (bar : Bar) : ℕ := bar.stop.toNat - bar.start.toNat + 1

/-- What the kernel does for one `XDMA_IOCMMAP`. -/
structure MmapKernel where
  accessOk : Bool
  /-- The bytes of the request that cannot be copied. -/
  copyRequest : ℕ
  /-- The bytes of the addresses, which are 512 at most, that cannot be copied. -/
  copyAddrs : Fin 513
  currentPid : Int32
  getMm : Int32 → Bool
  findVma : UInt64 → Option Vma
  resolveVm : UInt64 → Bool
  doMprotectPkey : ℤ
  /-- What `do_mprotect_pkey` leaves of an area that `find_vma` returned. -/
  protectedVma : Vma → Vma
  ioRemapPfnRange : ℤ

def protectPid (kernel : MmapKernel) (pid : Int32) : ℤ :=
  if pid = kernel.currentPid then kernel.doMprotectPkey
  else if !kernel.getMm pid then -Errno.EFAULT.code
  else kernel.doMprotectPkey

/-- The first address of the request (`vaddr_pages[0]`). -/
def IocMmap.vaddr (ioc : IocMmap) : UInt64 := ioc.addr[0]?.getD 0

def prepareMmapRemote (kernel : MmapKernel) (ioc : IocMmap) : Except ℤ Vma :=
  if ioc.addrSize ≠ 1 then .error (-Errno.EINVAL.code)
  else if ioc.pid ≠ 0 ∧ !kernel.getMm ioc.pid then .error (-Errno.EFAULT.code)
  else
    match kernel.findVma ioc.vaddr with
    | none => .error (-Errno.EFAULT.code)
    | some vma =>
        if vma.vmEnd ≤ ioc.vaddr then .error (-Errno.EFAULT.code)
        else if !kernel.resolveVm ioc.vaddr then .error (-Errno.ENXIO.code)
        else if protectPid kernel ioc.pid ≠ 0 then .error (-Errno.EFAULT.code)
        else .ok { kernel.protectedVma vma with vmPgoff := UInt64.ofNat ioc.vmPgoff }

/-- A call of `io_remap_pfn_range`, for the page of `phys`. -/
structure Remap where
  vaddr : UInt64
  phys : UInt64
  size : UInt64
  deriving DecidableEq

structure MmapOutcome where
  ret : ℤ
  remap : Option Remap

def bridgeMmap (xcdev : Option XdmaCdev) (bar : Bar) (kernel : MmapKernel) (vma : Vma) :
    MmapOutcome :=
  if xcdevCheck xcdev false < 0 then ⟨xcdevCheck xcdev false, none⟩
  else
    let off := vma.vmPgoff <<< 12
    let phys := bar.start + off
    let vsize := vma.vmEnd - vma.vmStart
    let psize := bar.stop - bar.start + 1 - off
    if vsize > psize then ⟨-Errno.EINVAL.code, none⟩
    else
      ⟨if kernel.ioRemapPfnRange ≠ 0 then -Errno.EAGAIN.code else 0,
        some ⟨vma.vmStart, phys, vsize⟩⟩

def charMmapIoctl (xcdev : Option XdmaCdev) (bar : Bar) (kernel : MmapKernel) (ioc : IocMmap) :
    MmapOutcome :=
  if 64 < ioc.addrSize then ⟨-Errno.EINVAL.code, none⟩
  else if kernel.copyAddrs ≠ 0 then ⟨kernel.copyAddrs.val, none⟩
  else
    match prepareMmapRemote kernel ioc with
    | .error ret => ⟨ret, none⟩
    | .ok vma => bridgeMmap xcdev bar kernel vma

/-- `char_ctrl_ioctl` for `XDMA_IOCMMAP`. -/
def charCtrlIoctlMmap (xcdev : Option XdmaCdev) (bar : Bar) (kernel : MmapKernel)
    (ioc : IocMmap) : MmapOutcome :=
  if xcdevCheck xcdev false < 0 then ⟨xcdevCheck xcdev false, none⟩
  else if !kernel.accessOk then ⟨-Errno.EFAULT.code, none⟩
  else if kernel.copyRequest ≠ 0 then ⟨-Errno.EFAULT.code, none⟩
  else charMmapIoctl xcdev bar kernel ioc

/-! ## What gets to the mapping -/

/-- The area that `prepare_mmap_remote` finds when all checks before `bridge_mmap` pass. -/
structure Prepares (xcdev : Option XdmaCdev) (kernel : MmapKernel) (ioc : IocMmap) (vma : Vma) :
    Prop where
  device : xcdevCheck xcdev false = 0
  accessOk : kernel.accessOk = true
  copyRequest : kernel.copyRequest = 0
  copyAddrs : kernel.copyAddrs = 0
  onePage : ioc.addrSize = 1
  target : ioc.pid = 0 ∨ kernel.getMm ioc.pid = true
  found : kernel.findVma ioc.vaddr = some vma
  inside : ioc.vaddr < vma.vmEnd
  resolved : kernel.resolveVm ioc.vaddr = true
  writable : protectPid kernel ioc.pid = 0

/-- The offset of the mapping in the BAR. -/
def IocMmap.off (ioc : IocMmap) : UInt64 := UInt64.ofNat ioc.vmPgoff <<< 12

def Bar.psize (bar : Bar) (off : UInt64) : UInt64 := bar.stop - bar.start + 1 - off

section Preparation

variable {xcdev : Option XdmaCdev} {bar : Bar} {kernel : MmapKernel} {ioc : IocMmap} {vma : Vma}

theorem prepareMmapRemote_cases (kernel : MmapKernel) (ioc : IocMmap) :
    (∃ ret, prepareMmapRemote kernel ioc = .error ret ∧ ret ≠ 0) ∨
      ∃ vma, prepareMmapRemote kernel ioc =
          .ok { kernel.protectedVma vma with vmPgoff := UInt64.ofNat ioc.vmPgoff } ∧
        ioc.addrSize = 1 ∧ (ioc.pid = 0 ∨ kernel.getMm ioc.pid = true) ∧
        kernel.findVma ioc.vaddr = some vma ∧ ioc.vaddr < vma.vmEnd ∧
        kernel.resolveVm ioc.vaddr = true ∧ protectPid kernel ioc.pid = 0 := by
  rw [prepareMmapRemote]
  split
  · exact Or.inl ⟨_, rfl, by decide⟩
  rename_i onePage
  split
  · exact Or.inl ⟨_, rfl, by decide⟩
  rename_i target
  split
  · exact Or.inl ⟨_, rfl, by decide⟩
  rename_i vma found
  split
  · exact Or.inl ⟨_, rfl, by decide⟩
  rename_i inside
  split
  · exact Or.inl ⟨_, rfl, by decide⟩
  rename_i resolved
  split
  · exact Or.inl ⟨_, rfl, by decide⟩
  rename_i writable
  refine Or.inr ⟨vma, rfl, not_not.mp onePage, ?_, found, UInt64.not_le.mp inside,
    by simpa using resolved, not_not.mp writable⟩
  by_cases current : ioc.pid = 0
  · exact Or.inl current
  · right
    simpa [current] using target

theorem prepareMmapRemote_of_prepares (prepares : Prepares xcdev kernel ioc vma) :
    prepareMmapRemote kernel ioc =
      .ok { kernel.protectedVma vma with vmPgoff := UInt64.ofNat ioc.vmPgoff } := by
  have target : ¬(ioc.pid ≠ 0 ∧ (!kernel.getMm ioc.pid) = true) := by
    rcases prepares.target with current | valid
    · simp [current]
    · simp [valid]
  simp only [prepareMmapRemote, prepares.onePage, target, prepares.found,
    UInt64.not_le.mpr prepares.inside, prepares.resolved, prepares.writable, ne_eq,
    not_true_eq_false, Bool.not_true, Bool.false_eq_true, ↓reduceIte]

theorem charCtrlIoctlMmap_of_prepares (prepares : Prepares xcdev kernel ioc vma) :
    charCtrlIoctlMmap xcdev bar kernel ioc =
      bridgeMmap xcdev bar kernel
        { kernel.protectedVma vma with vmPgoff := UInt64.ofNat ioc.vmPgoff } := by
  have few : ¬64 < ioc.addrSize := by
    rw [prepares.onePage]
    decide
  simp only [charCtrlIoctlMmap, charMmapIoctl, prepares.device, prepares.accessOk,
    prepares.copyRequest, prepares.copyAddrs, few, prepareMmapRemote_of_prepares prepares,
    lt_irrefl, ne_eq, not_true_eq_false, Bool.not_true, Bool.false_eq_true, ↓reduceIte]

/-- A request that does not get to `bridge_mmap` is refused. -/
theorem charCtrlIoctlMmap_refused (stops : ∀ vma, ¬Prepares xcdev kernel ioc vma) :
    (charCtrlIoctlMmap xcdev bar kernel ioc).remap = none ∧
      (charCtrlIoctlMmap xcdev bar kernel ioc).ret ≠ 0 := by
  rw [charCtrlIoctlMmap]
  split
  · rename_i invalid
    exact ⟨rfl, invalid.ne⟩
  rename_i valid
  split
  · exact ⟨rfl, by decide⟩
  rename_i accessOk
  split
  · exact ⟨rfl, by decide⟩
  rename_i copyRequest
  rw [charMmapIoctl]
  split
  · exact ⟨rfl, by decide⟩
  split
  · rename_i partly
    refine ⟨rfl, ?_⟩
    exact Int.natCast_ne_zero.mpr (Fin.val_ne_zero_iff.mpr partly)
  rename_i copyAddrs
  rcases prepareMmapRemote_cases kernel ioc with ⟨ret, failed, nonzero⟩ |
    ⟨vma, -, onePage, target, found, inside, resolved, writable⟩
  · rw [failed]
    exact ⟨rfl, nonzero⟩
  · have device : xcdevCheck xcdev false = 0 := by
      rcases xcdevCheck_cases xcdev false with valid | refused
      · exact valid
      · rw [refused] at valid
        exact absurd (by decide) valid
    exact absurd ⟨device, by simpa using accessOk, not_not.mp copyRequest, not_not.mp copyAddrs,
      onePage, target, found, inside, resolved, writable⟩ (stops vma)

end Preparation

/-! ## Within the BAR -/

/-- Every address that is mapped lies in the BAR, and without a mapping the request is refused. -/
structure StaysInBar (bar : Bar) (outcome : MmapOutcome) : Prop where
  mapped : ∀ remap, outcome.remap = some remap → ∀ index < remap.size.toNat,
    bar.start.toNat ≤ remap.phys.toNat + index ∧ remap.phys.toNat + index ≤ bar.stop.toNat
  refused : outcome.remap = none → outcome.ret ≠ 0

section Bounds

variable {bar : Bar} {off vsize : UInt64}

theorem Bar.toNat_psize (bar : Bar) (off : UInt64) :
    (bar.psize off).toNat = (bar.length + (2 ^ 64 - off.toNat)) % 2 ^ 64 := by
  have ordered : bar.start.toNat ≤ bar.stop.toNat := bar.ordered
  have stop := bar.stop.toNat_lt
  simp only [Bar.psize, Bar.length, UInt64.toNat_sub, UInt64.toNat_add, UInt64.toNat_one]
  omega

/-- An offset behind the BAR lets every size through that does not wrap around once more. -/
theorem vsize_le_psize_iff (behind : bar.length < off.toNat) :
    vsize ≤ bar.psize off ↔ vsize.toNat + off.toNat ≤ 2 ^ 64 + bar.length := by
  have off_lt := off.toNat_lt
  rw [UInt64.le_iff_toNat_le, Bar.toNat_psize, Nat.mod_eq_of_lt (by omega)]
  omega

/-- What passes the check is in the BAR if and only if it is empty or the offset is. -/
theorem inBar_iff (passes : vsize ≤ bar.psize off) :
    (∀ index < vsize.toNat, bar.start.toNat ≤ (bar.start + off).toNat + index ∧
        (bar.start + off).toNat + index ≤ bar.stop.toNat) ↔
      vsize = 0 ∨ off.toNat ≤ bar.length := by
  have ordered : bar.start.toNat ≤ bar.stop.toNat := bar.ordered
  have stop := bar.stop.toNat_lt
  have off_lt := off.toNat_lt
  have length : bar.length = bar.stop.toNat - bar.start.toNat + 1 := rfl
  rw [← UInt64.toNat_inj, UInt64.toNat_zero, UInt64.toNat_add]
  constructor
  · intro inside
    rcases Nat.eq_zero_or_pos vsize.toNat with none | some
    · exact Or.inl none
    · -- the first address is not below the BAR, so it has not wrapped around
      have first := inside 0 some
      omega
  · rintro (none | within) index index_lt
    · omega
    · rw [UInt64.le_iff_toNat_le, Bar.toNat_psize] at passes
      omega

end Bounds

/-- The offset lies in the BAR or right behind it, or the area is empty, or so large that the size
check refuses it even so. -/
def OffsetHarmless (bar : Bar) (ioc : IocMmap) (vma : Vma) : Prop :=
  vma.vmEnd - vma.vmStart = 0 ∨ ioc.off.toNat ≤ bar.length ∨
    2 ^ 64 + bar.length < (vma.vmEnd - vma.vmStart).toNat + ioc.off.toNat

theorem bridgeMmap_staysInBar_iff {xcdev : Option XdmaCdev} (device : xcdevCheck xcdev false = 0)
    (bar : Bar) (kernel : MmapKernel) (ioc : IocMmap) (vma : Vma) :
    StaysInBar bar
        (bridgeMmap xcdev bar kernel { vma with vmPgoff := UInt64.ofNat ioc.vmPgoff }) ↔
      OffsetHarmless bar ioc vma := by
  have valid : ¬xcdevCheck xcdev false < 0 := by
    rw [device]
    decide
  have outcome : bridgeMmap xcdev bar kernel { vma with vmPgoff := UInt64.ofNat ioc.vmPgoff } =
      if vma.vmEnd - vma.vmStart > bar.psize ioc.off then ⟨-Errno.EINVAL.code, none⟩
      else
        ⟨if kernel.ioRemapPfnRange ≠ 0 then -Errno.EAGAIN.code else 0,
          some ⟨vma.vmStart, bar.start + ioc.off, vma.vmEnd - vma.vmStart⟩⟩ :=
    if_neg valid
  rw [outcome]
  by_cases passes : vma.vmEnd - vma.vmStart ≤ bar.psize ioc.off
  · have bounds := inBar_iff passes
    have through := @vsize_le_psize_iff bar ioc.off (vma.vmEnd - vma.vmStart)
    rw [if_neg (UInt64.not_lt.mpr passes)]
    constructor
    · intro stays
      exact (bounds.mp (stays.mapped _ rfl)).imp_right Or.inl
    · intro harmless
      have within : vma.vmEnd - vma.vmStart = 0 ∨ ioc.off.toNat ≤ bar.length := by
        rcases harmless with empty | inside | huge
        · exact Or.inl empty
        · exact Or.inr inside
        · right
          by_contra behind
          exact absurd ((through (not_le.mp behind)).mp passes) (not_le.mpr huge)
      refine ⟨?_, nofun⟩
      intro remap same
      cases same
      exact bounds.mpr within
  · rw [if_pos (UInt64.not_le.mp passes)]
    refine iff_of_true ⟨fun _ => nofun, fun _ => by decide⟩ ?_
    rcases le_or_gt ioc.off.toNat bar.length with inside | behind
    · exact Or.inr (Or.inl inside)
    · exact Or.inr (Or.inr (not_le.mp ((vsize_le_psize_iff behind).not.mp passes)))

/--
`XDMA_IOCMMAP` maps nothing outside the BAR, and refuses what it does not map, if and only
if the offset is harmless for what is left of the area when its page has been made writable.
-/
theorem charCtrlIoctlMmap_staysInBar_iff (xcdev : Option XdmaCdev) (bar : Bar)
    (kernel : MmapKernel) (ioc : IocMmap) :
    StaysInBar bar (charCtrlIoctlMmap xcdev bar kernel ioc) ↔
      ∀ vma, Prepares xcdev kernel ioc vma →
        OffsetHarmless bar ioc (kernel.protectedVma vma) := by
  by_cases reaches : ∃ vma, Prepares xcdev kernel ioc vma
  · rcases reaches with ⟨vma, prepares⟩
    rw [charCtrlIoctlMmap_of_prepares prepares, bridgeMmap_staysInBar_iff prepares.device]
    constructor
    · intro harmless other again
      have same : vma = other := Option.some.inj (prepares.found.symm.trans again.found)
      rwa [← same]
    · intro harmless
      exact harmless vma prepares
  · rw [not_exists] at reaches
    rcases @charCtrlIoctlMmap_refused xcdev bar kernel ioc reaches with ⟨none, nonzero⟩
    refine iff_of_true ⟨?_, fun _ => nonzero⟩ (fun vma prepares => absurd prepares (reaches vma))
    intro remap same
    rw [none] at same
    cases same

/-- A request for one page of the process with the area `[0x1000, 0x2000)`. -/
def IocMmap.behindBar : IocMmap where
  pid := 0
  vmPgoff := 2
  vmPageProt := 0
  vmFlags := 0
  addr := [0x1000]
  addrSize := 1

def MmapKernel.oneArea : MmapKernel where
  accessOk := true
  copyRequest := 0
  copyAddrs := 0
  currentPid := 0
  getMm := fun _ => true
  findVma := fun _ => some ⟨0x1000, 0x2000, 0⟩
  resolveVm := fun _ => true
  doMprotectPkey := 0
  protectedVma := id
  ioRemapPfnRange := 0

/-- A BAR of one page at 4 GiB. -/
def Bar.onePage : Bar where
  start := 0x100000000
  stop := 0x100000FFF
  ordered := by decide

/-- The second page behind a BAR of one page is mapped. -/
theorem mmap_leaves_bar :
    ¬∀ (xcdev : Option XdmaCdev) (bar : Bar) (kernel : MmapKernel) (ioc : IocMmap),
      StaysInBar bar (charCtrlIoctlMmap xcdev bar kernel ioc) := by
  intro claim
  have stays := claim (some .writer) .onePage .oneArea .behindBar
  have mapped : (charCtrlIoctlMmap (some .writer) .onePage .oneArea .behindBar).remap =
      some ⟨0x1000, 0x100002000, 0x1000⟩ := by
    decide +kernel
  exact absurd (stays.mapped _ mapped 0 (by decide)).2 (by decide)

end Acai
