/-
Mapping the frame buffer into a process (`drivers/video/jz4740_slcd.c`), with the
part of `mm/memory.c` that fills in the page table.

All addresses are 32 bit words, and so is every sum made of them: the offset a
process asks for is shifted and added without a look at the carry.
-/
import Mathlib.Data.BitVec

namespace Dingoo.Jz4740Slcd

def EAGAIN : Int := 11

def ENOMEM : Int := 12

def EINVAL : Int := 22

/-- `PAGE_MASK` -/
def pageMask : BitVec 32 := 0xFFFFF000

/-- `PAGE_ALIGN` -/
def pageAlign (addr : BitVec 32) : BitVec 32 := (addr + 4096 - 1) &&& pageMask

/-- `VM_SHARED` -/
def vmShared : BitVec 32 := 0x8

/-- `VM_MAYWRITE` -/
def vmMaywrite : BitVec 32 := 0x20

/-- `VM_PFNMAP` -/
def vmPfnmap : BitVec 32 := 0x400

/-- `VM_IO` -/
def vmIo : BitVec 32 := 0x4000

/-- `VM_RESERVED` -/
def vmReserved : BitVec 32 := 0x80000

/-- `_CACHE_MASK` -/
def cacheMask : BitVec 32 := 0xE00

/-- `_CACHE_UNCACHED` -/
def cacheUncached : BitVec 32 := 0x400

/-- `_CACHE_CACHABLE_NONCOHERENT` -/
def cacheCachableNoncoherent : BitVec 32 := 0x600

/-- `struct vm_area_struct` -/
structure Vma where
  vmStart : BitVec 32
  vmEnd : BitVec 32
  vmPgoff : BitVec 32
  vmFlags : BitVec 32
  vmPageProt : BitVec 32
  deriving DecidableEq, Repr

/-- The two fields of `struct fb_fix_screeninfo` that place the frame buffer. -/
structure Fix where
  smemStart : BitVec 32
  smemLen : BitVec 32
  deriving DecidableEq, Repr

/-- A page table entry: the user address, the physical page and its protection. -/
structure Pte where
  addr : BitVec 32
  phys : BitVec 32
  prot : BitVec 32
  deriving DecidableEq, Repr

/-- What a call leaves: its result, the area and the entries it has set. -/
structure Mapped where
  ret : Int
  vma : Vma
  ptes : List Pte
  deriving DecidableEq, Repr

/-- `pgprot_noncached` -/
def pgprotNoncached (prot : BitVec 32) : BitVec 32 := (prot &&& ~~~cacheMask) ||| cacheUncached

/-- `is_cow_mapping` -/
def isCowMapping (flags : BitVec 32) : Bool := flags &&& (vmShared ||| vmMaywrite) == vmMaywrite

/-- `remap_pte_range` and the levels above it: `n` pages, one after the other.  An
entry holds the page frame number shifted, in 32 bits. -/
def remapPteRange (prot : BitVec 32) : Nat → BitVec 32 → BitVec 32 → List Pte
  | 0, _, _ => []
  | n + 1, addr, pfn => ⟨addr, pfn <<< 12, prot⟩ :: remapPteRange prot n (addr + 4096) (pfn + 1)

/-- `remap_pfn_range`.  `tables` is the number of pages after which no page table can
be allocated, if there is one; no result is the `BUG_ON` for an empty range. -/
def remapPfnRange (tables : Option Nat) (vma : Vma) (addr pfn size prot : BitVec 32) :
    Option Mapped :=
  let end_ := addr + pageAlign size
  if isCowMapping vma.vmFlags ∧ (addr ≠ vma.vmStart ∨ end_ ≠ vma.vmEnd) then
    some ⟨-EINVAL, vma, []⟩
  else
    let vma := if isCowMapping vma.vmFlags then { vma with vmPgoff := pfn } else vma
    let vma := { vma with vmFlags := vma.vmFlags ||| (vmIo ||| vmReserved ||| vmPfnmap) }
    if addr ≥ end_ then none
    else
      let ptes := remapPteRange prot ((end_ - addr) >>> 12).toNat addr pfn
      match tables with
      | none => some ⟨0, vma, ptes⟩
      | some k => some ⟨-ENOMEM, vma, ptes.take k⟩

/-- `jzfb_mmap` -/
def jzfbMmap (fix : Fix) (tables : Option Nat) (vma : Vma) : Option Mapped :=
  let off := vma.vmPgoff <<< 12
  let start := fix.smemStart
  let len := pageAlign ((start &&& ~~~pageMask) + fix.smemLen)
  let start := start &&& pageMask
  if vma.vmEnd - vma.vmStart + off > len then some ⟨-EINVAL, vma, []⟩
  else
    let off := off + start
    let vma := { vma with
      vmPgoff := off >>> 12
      vmFlags := vma.vmFlags ||| vmIo
      vmPageProt := pgprotNoncached vma.vmPageProt }
    -- the uncached mapping is made a write-through one again
    let vma := { vma with
      vmPageProt := (vma.vmPageProt &&& ~~~cacheMask) ||| cacheCachableNoncoherent }
    match remapPfnRange tables vma vma.vmStart (off >>> 12) (vma.vmEnd - vma.vmStart)
        vma.vmPageProt with
    | none => none
    | some m => some { m with ret := if m.ret ≠ 0 then -EAGAIN else 0 }

end Dingoo.Jz4740Slcd
