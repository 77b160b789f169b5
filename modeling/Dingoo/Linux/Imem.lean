/-
The IPU memory allocator behind `/proc/jz/imem` (`arch/mips/jz4740/proc.c`).

Four megabytes from `jz_imem_base` on are handed out in runs of `2^n` pages.  The
allocated buffers are kept in a list sorted by start address; an allocation walks
it once to find a gap and a second time to find its place.  Addresses are 32 bit
words throughout, so every gap is a subtraction that could wrap.

`imem_free_all` also drops the wired TLB entries of the IPU; they are not part of
this state.
-/
import Mathlib.Data.BitVec

namespace Dingoo.Imem

/-- `struct imem_list`; `next` is the tail of the list. -/
structure ImemList where
  physStart : BitVec 32
  physEnd : BitVec 32
  deriving DecidableEq, Repr

structure State where
  /-- `imem_list_head`, up sorted by `phys_start`. -/
  list : List ImemList
  allocatedPhysAddr : BitVec 32
  deriving DecidableEq, Repr

/-- `IMEM_MAX_ORDER`: at most `2^10 * 4096` = 4 MB. -/
def imemMaxOrder : Nat := 10

/-- `(1 << order) * PAGE_SIZE` -/
def orderSize (order : Nat) : BitVec 32 := (1#32 <<< order) * 4096#32

def ENOMEM : Int := 12

/-- The first walk of `imem_alloc`: `alloc_ok` and `start` when the loop ends. -/
def findGap (size : BitVec 32) : BitVec 32 → List ImemList → Bool × BitVec 32
  | start, [] => (false, start)
  | start, imem :: next =>
    if imem.physStart - start ≥ size then (true, start)
    else findGap size (imem.physEnd + 1) next

/-- The second walk: up to the first buffer that starts above the new one. -/
def insertSorted (imemn : ImemList) : List ImemList → List ImemList
  | [] => [imemn]
  | imem :: next =>
    if imemn.physStart < imem.physStart then imemn :: imem :: next
    else imem :: insertSorted imemn next

/-- `imem_alloc`, with the outcome of its `kmalloc`; the address is reported before
the list node is allocated. -/
def imemAlloc (base : BitVec 32) (kmalloc : Bool) (order : Nat) (st : State) : Int × State :=
  let size := orderSize order
  let end_ := base + orderSize imemMaxOrder
  let (allocOk, start) := findGap size base st.list
  let allocOk := if allocOk then true else decide (end_ - start ≥ size)
  if allocOk then
    let end_ := start + size - 1
    if kmalloc then (0, ⟨insertSorted ⟨start, end_⟩ st.list, start⟩)
    else (-ENOMEM, { st with allocatedPhysAddr := start })
  else (0, { st with allocatedPhysAddr := 0 })

/-- `imem_free`: the first buffer that starts at the address is unlinked. -/
def freeList (physAddr : BitVec 32) : List ImemList → List ImemList
  | [] => []
  | imem :: next =>
    if physAddr = imem.physStart then next else imem :: freeList physAddr next

def imemFree (physAddr : BitVec 32) (st : State) : State :=
  { st with list := freeList physAddr st.list }

def imemFreeAll (_st : State) : State := ⟨[], 0⟩

/-- The loop of `get_order`. -/
def getOrderLoop (size : Nat) (order : Int) : Int :=
  if size >>> 1 = 0 then order + 1 else getOrderLoop (size >>> 1) (order + 1)
termination_by size
decreasing_by
  rw [Nat.shiftRight_one] at *
  omega

/-- `get_order` of `asm-generic/page.h`, with `PAGE_SHIFT` 12. -/
def getOrder (size : BitVec 32) : Int := getOrderLoop ((size - 1) >>> 11).toNat (-1)

/-- The walk of `imem_read_proc`: `max_size` and `start_addr` when the loop ends. -/
def largestGap : BitVec 32 → BitVec 32 → List ImemList → BitVec 32 × BitVec 32
  | maxSize, start, [] => (maxSize, start)
  | maxSize, start, imem :: next =>
    largestGap (if maxSize < imem.physStart - start then imem.physStart - start else maxSize)
      (imem.physEnd + 1) next

def maxSize (base : BitVec 32) (st : State) : BitVec 32 :=
  let end_ := base + orderSize imemMaxOrder
  if st.list = [] then end_ - base
  else
    let (maxSize, start) := largestGap 0 base st.list
    if maxSize < end_ - start then end_ - start else maxSize

/-- `imem_read_proc`: the address allocated last and the largest order free. -/
def imemReadProc (base : BitVec 32) (st : State) : BitVec 32 × BitVec 32 :=
  let maxSize := maxSize base st
  let maxOrder : BitVec 32 :=
    if maxSize > 0 then
      let maxOrder := BitVec.ofInt 32 (getOrder maxSize)
      if orderSize maxOrder.toNat > maxSize then maxOrder - 1 else maxOrder
    else 0xffffffff
  (st.allocatedPhysAddr, maxOrder)

/-- `imem_write_proc` once the number in the buffer has been read. -/
def imemWriteProc (base : BitVec 32) (kmalloc : Bool) (val : BitVec 32) (st : State) : State :=
  if val = 0xff then imemFreeAll st
  else if val.toNat ≤ imemMaxOrder then (imemAlloc base kmalloc val.toNat st).2
  else imemFree val st

/-- The state after a sequence of writes, each with the outcome of its `kmalloc`. -/
def runWrites (base : BitVec 32) (writes : List (BitVec 32 × Bool)) : State :=
  writes.foldl (fun st w => imemWriteProc base w.2 w.1 st) ⟨[], 0⟩

end Dingoo.Imem
