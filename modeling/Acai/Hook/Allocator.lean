import Acai.Escape.Layout
import Acai.Lib.Ledger

/-!
# The allocator hook

This file models `hook.c`: the `malloc`, `calloc`, `realloc` and `free` that are
preloaded into the simulator. A block comes from one of three allocators: the
bootstrap buffer, as long as the symbols of the C library are being resolved; the
premapped region, if it is asked for with the size of a guest page; and the C
library.

The hook calls the C library for other things too (`dlsym`, `printf`, `fopen`),
and these may allocate and free on their own, so that the four functions are
entered again before they have returned. The model therefore is a machine with a
stack. A move is either a call of one of the four functions, by the program or by
the library function that is running, or the return of that library function; a
frame says where the hook goes on after it. What the library answers comes with
the move.

The pointers passed to the `real_*` functions are kept as a ledger of the blocks
of the C library. A null pointer is zero.
-/

namespace Acai

/-! ## State -/

/-- The functions that the hook looks up with `dlsym`. -/
inductive LibcSymbol where
  | malloc
  | calloc
  | realloc
  | free
  deriving DecidableEq

/-- A block as its owner knows it: the pointer, and the size it was asked for with. -/
structure Block where
  ptr : ℕ
  size : ℕ
  deriving DecidableEq

inductive HookRequest where
  | malloc (size : ℕ)
  | calloc (nmemb size : ℕ)
  | realloc (old : Block) (size : ℕ)
  | free (block : Block)
  deriving DecidableEq

def HookRequest.symbol : HookRequest → LibcSymbol
  | malloc _ => .malloc
  | calloc _ _ => .calloc
  | realloc _ _ => .realloc
  | free _ => .free

/-- The block that a request hands to the hook. -/
def HookRequest.block : HookRequest → Option Block
  | malloc _ | calloc _ _ => none
  | realloc block _ | free block => if block.ptr = 0 then none else some block

/-- Where the hook goes on when the library function that it has called returns. -/
inductive HookFrame where
  /-- `dlsym` in `init_symbol` -/
  | resolve (request : HookRequest)
  /-- `HERE_NUMBER` -/
  | hereNumber (request : HookRequest)
  /-- The output of `mmap_annon` before it sets `map_start`. -/
  | mmapAnnon (request : HookRequest)
  /-- The output of `mmap_annon` after that, and `mlock2`. -/
  | lockPages (request : HookRequest)
  | statFile (request : HookRequest)
  /-- `HERE` in `free` -/
  | here
  /-- The trace of every ten thousandth page. -/
  | tracePage (block : Block)
  /-- An error message, behind which the process exits. -/
  | exit
  deriving DecidableEq

def HookFrame.block : HookFrame → Option Block
  | resolve request | hereNumber request | mmapAnnon request | lockPages request
  | statFile request => request.block
  | here | tracePage _ | exit => none

inductive HookStatus where
  | running
  | exited
  | deadlocked
  | crashed
  deriving DecidableEq

/-- A call of `real_realloc`, with the memory before and after it. -/
structure Reallocated where
  old : Block
  size : ℕ
  ret : Option ℕ
  before : ByteMem
  after : ByteMem

structure HookState where
  resolved : LibcSymbol → Bool
  doMallocInit : Bool
  doCallocInit : Bool
  isDoInit : Bool
  map : ℕ
  /-- `map_start`; `none` is the null pointer. -/
  mapStart : Option ℕ
  bufferUsed : ℕ
  locked : Bool
  mallocCount : ℕ
  memory : ByteMem
  stack : List HookFrame
  status : HookStatus
  /-- The blocks that were returned and not handed back. -/
  live : List Block
  /-- The blocks of the C library. -/
  heap : List (Ledger.Event ℕ)
  reallocs : List Reallocated

/-- What the C library and the kernel answer in one move. -/
structure HookAnswer where
  dlsym : Bool
  mmap : Option ℕ
  fopen : Bool
  /-- The pointer that `real_malloc`, `real_calloc` or `real_realloc` returns. -/
  real : Option ℕ
  /-- The memory behind that call. -/
  memory : ByteMem

inductive HookMove where
  | call (request : HookRequest) (memory : ByteMem) (answer : HookAnswer)
  | resume (memory : ByteMem) (answer : HookAnswer)

def mapSize : ℕ := 1024 * 1024 * 1024 * 3

def bufferSize : ℕ := 40960

/-- The one size that is served from the premapped region. -/
def pageMallocSize : ℕ := 4128

namespace HookState

/-- The process before the first call: the globals are zero. -/
def initial : HookState where
  resolved := fun _ => false
  doMallocInit := false
  doCallocInit := false
  isDoInit := false
  map := 0
  mapStart := none
  bufferUsed := 0
  locked := false
  mallocCount := 0
  memory := ByteMem.zero
  stack := []
  status := .running
  live := []
  heap := []
  reallocs := []

def push (state : HookState) (frame : HookFrame) : HookState :=
  { state with stack := frame :: state.stack }

def give (state : HookState) (block : Block) : HookState :=
  { state with live := block :: state.live }

/-- `is_map_address` -/
def isMapAddress (state : HookState) (ptr : ℕ) : Bool :=
  state.mapStart.getD 0 ≤ ptr && ptr < state.mapStart.getD 0 + mapSize

end HookState

/-! ## The allocators -/

section Hook

variable (buffer : ℕ)

/-- `mm_is_address` -/
def mmIsAddress (ptr : ℕ) : Bool := buffer ≤ ptr && ptr < buffer + bufferSize

/-- `malloc` from the bootstrap buffer. -/
def mmMalloc (size : ℕ) (state : HookState) : HookState :=
  if u64 (state.bufferUsed + size) ≤ bufferSize then
    { state with bufferUsed := u64 (state.bufferUsed + size) }.give
      ⟨buffer + state.bufferUsed, size⟩
  else state.push .exit

/-- `calloc` from the bootstrap buffer. A size that wraps around is accepted, and the loop that
clears the block then leaves the address space. -/
def mmCalloc (nmemb size : ℕ) (state : HookState) : HookState :=
  let count := u64 (nmemb * size)
  if u64 (state.bufferUsed + count) ≤ bufferSize then
    if bufferSize < state.bufferUsed + count then { state with status := .crashed }
    else
      { state with
        bufferUsed := u64 (state.bufferUsed + count)
        memory :=
          state.memory.writeBytes (buffer + state.bufferUsed) (List.replicate count 0) }.give
        ⟨buffer + state.bufferUsed, nmemb * size⟩
  else state.push .exit

/-- `malloc` from the premapped region. -/
def pageMalloc (size : ℕ) (state : HookState) : HookState :=
  if state.locked then { state with status := .deadlocked }
  else if state.mapStart.getD 0 + mapSize ≤ state.map + pageSize then
    { state with map := state.map + pageSize }.push .exit
  else
    let taken :=
      { state with map := state.map + pageSize, mallocCount := u64 (state.mallocCount + 1) }
    if taken.mallocCount % 10000 = 0 then taken.push (.tracePage ⟨state.map, size⟩)
    else taken.give ⟨state.map, size⟩

/-- `real_malloc` and `real_calloc` -/
def realMalloc (size : ℕ) (answer : HookAnswer) (state : HookState) : HookState :=
  match answer.real with
  | none => { state with memory := answer.memory }
  | some ptr =>
      { state with
        memory := answer.memory
        heap := state.heap ++ [Ledger.Event.acquire ptr] }.give ⟨ptr, size⟩

/-- The events of a call of `real_realloc`: a failed one leaves the old block alone, unless its
size is zero and the block is freed. -/
def reallocEvents (old : Block) (size : ℕ) (ret : Option ℕ) : List (Ledger.Event ℕ) :=
  match ret with
  | none => if old.ptr = 0 then [] else if size = 0 then [.release old.ptr] else [.use old.ptr]
  | some ptr => if old.ptr = 0 then [.acquire ptr] else [.release old.ptr, .acquire ptr]

def realRealloc (old : Block) (size : ℕ) (answer : HookAnswer) (state : HookState) : HookState :=
  let called :=
    { state with
      memory := answer.memory
      heap := state.heap ++ reallocEvents old size answer.real
      reallocs := state.reallocs ++ [⟨old, size, answer.real, state.memory, answer.memory⟩] }
  match answer.real with
  | none => if old.ptr = 0 ∨ size = 0 then called else called.give old
  | some ptr => called.give ⟨ptr, size⟩

def realFree (block : Block) (state : HookState) : HookState :=
  { state with heap := state.heap ++ if block.ptr = 0 then [] else [.release block.ptr] }

/-- The four functions behind `do_init`. -/
def serve (request : HookRequest) (answer : HookAnswer) (state : HookState) : HookState :=
  match request with
  | .malloc size =>
      if size = pageMallocSize then pageMalloc size state else realMalloc size answer state
  | .calloc nmemb size => realMalloc (nmemb * size) answer state
  | .realloc old size => realRealloc old size answer state
  | .free block => if state.isMapAddress block.ptr then state else realFree block state

/-- `do_init` and what comes behind it. -/
def doInit (request : HookRequest) (answer : HookAnswer) (state : HookState) : HookState :=
  if state.isDoInit then serve request answer state
  else
    let started := { state with isDoInit := true }
    if state.locked then { started with status := .deadlocked }
    else
      match answer.mmap with
      | none => { started with locked := true, map := 2 ^ 64 - 1 }.push .exit
      | some address => { started with locked := true, map := address }.push (.mmapAnnon request)

/-- The entry of the four functions. -/
def enter (request : HookRequest) (answer : HookAnswer) (state : HookState) : HookState :=
  match request with
  | .malloc size =>
      if state.resolved .malloc then doInit request answer state
      else if state.doMallocInit then mmMalloc buffer size state
      else { state with doMallocInit := true }.push (.resolve request)
  | .calloc nmemb size =>
      if state.resolved .calloc then doInit request answer state
      else if state.doCallocInit then mmCalloc buffer nmemb size state
      else { state with doCallocInit := true }.push (.resolve request)
  | .realloc _ _ =>
      if state.resolved .realloc then doInit request answer state
      else state.push (.resolve request)
  | .free block =>
      if mmIsAddress buffer block.ptr then state.push .here
      else if state.resolved .free then doInit request answer state
      else state.push (.resolve request)

/-- The hook goes on behind the library function that has returned. -/
def goOn (frame : HookFrame) (answer : HookAnswer) (state : HookState) : HookState :=
  match frame with
  | .resolve request =>
      if answer.dlsym then
        let found := { state with resolved := Function.update state.resolved request.symbol true }
        match request with
        | .malloc _ | .calloc _ _ => found.push (.hereNumber request)
        | .realloc _ _ | .free _ => doInit request answer found
      else state.push .exit
  | .hereNumber request => doInit request answer state
  | .mmapAnnon request => { state with mapStart := some state.map }.push (.lockPages request)
  | .lockPages request => { state with locked := false }.push (.statFile request)
  | .statFile request => if answer.fopen then serve request answer state else state.push .exit
  | .here => state
  | .tracePage block => state.give block
  | .exit => { state with status := .exited }

/-- The caller hands the block of a request over. -/
def HookState.takeBack (state : HookState) (request : HookRequest) : HookState :=
  match request.block with
  | none => state
  | some block => { state with live := state.live.erase block }

def hookStep (state : HookState) (move : HookMove) : HookState :=
  if state.status ≠ .running then state
  else
    match move with
    | .call request memory answer =>
        enter buffer request answer { state.takeBack request with memory := memory }
    | .resume memory answer =>
        match state.stack with
        | [] => state
        | frame :: stack => goOn frame answer { state with memory := memory, stack := stack }

end Hook

end Acai
