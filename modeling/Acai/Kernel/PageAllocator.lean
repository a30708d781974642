import Acai.Escape.Layout
import Acai.Lib.Runs
import Mathlib.Data.Nat.Size
import Mathlib.Data.Set.Lattice
import Mathlib.Order.CompletePartialOrder

/-!
# The kernel's page allocator

`__get_free_pages` hands out a block of `2 ^ order` page frames in a row, and
`free_pages` takes such a block back. The order that `free_pages` is given is not
checked against the one with which the block was allocated: a greater order also
frees the frames behind the block, whoever holds them.

`roundup_pow_of_two` is the kernel's function for sizes of buffers. It gives a
power of two, and not its logarithm, which is what an order is.
-/

namespace Acai

def flsLong (value : UInt64) : ℕ := Nat.size value.toNat

/-- `__roundup_pow_of_two`. The shift is the machine's, which looks at the last six bits only. -/
def roundupPowOfTwo (n : UInt64) : UInt64 := 1 <<< UInt64.ofNat (flsLong (n - 1))

/-- Page frames in a row, as the allocator hands them out. -/
structure PageBlock where
  pfn : ℕ
  order : ℕ
  deriving DecidableEq

namespace PageBlock

def pages (block : PageBlock) : ℕ := 2 ^ block.order

def frames (block : PageBlock) : Set ℕ :=
  {frame | block.pfn ≤ frame ∧ frame < block.pfn + block.pages}

theorem pages_pos (block : PageBlock) : 0 < block.pages := Nat.two_pow_pos _

theorem pfn_mem_frames (block : PageBlock) : block.pfn ∈ block.frames :=
  ⟨le_rfl, Nat.lt_add_of_pos_right block.pages_pos⟩

end PageBlock

/-- What a driver asks of the page allocator and of the page tables. -/
inductive PageCall where
  | getFreePages (order : ℕ) (block : Option ℕ)
  | freePages (block : PageBlock)
  | remapPfnRange (pfn : ℕ) (size : ℕ) (ret : ℤ)
  deriving DecidableEq

namespace PageCall

/-- The allocated frames behind a call. -/
def step (allocated : Set ℕ) : PageCall → Set ℕ
  | getFreePages order (some pfn) => allocated ∪ (PageBlock.mk pfn order).frames
  | getFreePages _ none => allocated
  | freePages block => allocated \ block.frames
  | remapPfnRange _ _ _ => allocated

/-- The allocator hands out frames that are free. -/
def Admits (before : Set ℕ) (calls : List PageCall) : Prop :=
  Runs.Throughout step
    (fun allocated call => ∀ order pfn, call = getFreePages order (some pfn) →
      Disjoint allocated (PageBlock.mk pfn order).frames) before calls

end PageCall

end Acai
