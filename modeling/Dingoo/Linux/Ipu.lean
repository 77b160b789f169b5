/-
The buffers of the image processing unit behind `/proc/jz/ipu`
(`arch/mips/jz4740/proc.c`).

A write of 1 to 9 allocates a block of pages and notes it in the first free entry of
`ipu_buf`, a write of `ff` frees every entry, and any other number is taken for the
address of the buffer to be freed.  The search for an entry may end behind the
table, so `ipu_buf` is a function on all indices: the first four are the table, the
others are whatever memory lies behind it.

Every index used is logged, and so is every call of the page allocator.  Of the
pages the state has the reserved flag, of the TLB the number of wired entries.
-/
import Mathlib.Data.BitVec
import Dingoo.Lib.CString

namespace Dingoo.Ipu

open Dingoo.Lib

/-- `ipu_buf_t` -/
structure IpuBuf where
  addr : BitVec 32
  pageShift : BitVec 32
  deriving DecidableEq, Repr

/-- An access to `ipu_buf`, or a call of the page allocator with the block's virtual
address and order. -/
inductive Op
  | access (i : Nat)
  | getFreePages (virt order : BitVec 32)
  | freePages (virt order : BitVec 32)
  deriving DecidableEq, Repr

structure State where
  /-- `ipu_buf`, and the memory behind it -/
  ipuBuf : Nat → IpuBuf
  ipuBufCnt : Nat
  /-- the reserved flag of each page frame -/
  reserved : BitVec 32 → Bool
  /-- the `wired` register -/
  wired : Nat
  /-- log: accesses to the table and calls of the page allocator -/
  log : List Op

/-- `IPU_BUF_MAX` -/
def ipuBufMax : Nat := 4

/-- `virt_to_phys` -/
def virtToPhys (virt : BitVec 32) : BitVec 32 := virt - 0x80000000

/-- `phys_to_virt` -/
def physToVirt (phys : BitVec 32) : BitVec 32 := phys + 0x80000000

/-- `virt_to_page`: the number of the page frame. -/
def virtToPage (virt : BitVec 32) : BitVec 32 := virtToPhys virt >>> 12

/-- `1 << page_shift`, as a number of turns: the shift is by the low five bits and
the result is an `int`. -/
def pageCount (pageShift : BitVec 32) : Nat := (1#32 <<< (pageShift.toNat % 32)).toInt.toNat

/-- The loops of `SetPageReserved` and `ClearPageReserved`. -/
def markPages (flag : Bool) : Nat → BitVec 32 → (BitVec 32 → Bool) → BitVec 32 → Bool
  | 0, _, reserved => reserved
  | n + 1, addr, reserved =>
    markPages flag n (addr + 4096) (Function.update reserved (virtToPage addr) flag)

/-- `for (i = 0; i < IPU_BUF_MAX; ++i) if (p(ipu_buf[i])) break;` from `i` on with `n`
turns left, and the accesses made. -/
def search (p : IpuBuf → Bool) (buf : Nat → IpuBuf) : Nat → Nat → Nat × List Op
  | 0, i => (i, [])
  | n + 1, i =>
    if p (buf i) then (i, [.access i])
    else
      let (j, ops) := search p buf n (i + 1)
      (j, .access i :: ops)

/-- `ipu_del_wired_entry` -/
def ipuDelWiredEntry (s : State) : State := { s with wired := 0 }

/-- `ipu_add_wired_entry`; the entry itself is not modelled. -/
def ipuAddWiredEntry (s : State) : State := if s.wired ≠ 0 then s else { s with wired := 1 }

/-- `ipu_buf_get`; `virt` is what `__get_free_pages` returns. -/
def ipuBufGet (virt pageShift : BitVec 32) (s : State) : State :=
  let (i, ops) := search (fun b => b.addr == 0) s.ipuBuf ipuBufMax 0
  let s := { s with ipuBufCnt := i, log := s.log ++ ops }
  if i = ipuBufMax then s
  else if virt ≠ 0 then
    { s with
      ipuBuf := Function.update s.ipuBuf i ⟨virtToPhys virt, pageShift⟩
      reserved := markPages true (pageCount pageShift) virt s.reserved
      log := s.log ++ [.getFreePages virt pageShift, .access i] }
  else s

/-- `ipu_buf_free` behind the search: the entry at `cnt` is freed, wherever that is. -/
def ipuBufFreeAt (cnt : Nat) (s : State) : State :=
  let pageShift := (s.ipuBuf cnt).pageShift
  let virt := physToVirt (s.ipuBuf cnt).addr
  let s := { s with reserved := markPages false (pageCount pageShift) virt s.reserved }
  let s := if cnt = 0 then ipuDelWiredEntry s else s
  { s with
    ipuBuf := Function.update s.ipuBuf cnt ⟨0, 0⟩
    log := s.log ++ [.access cnt, .freePages virt pageShift] }

/-- `ipu_buf_free` -/
def ipuBufFree (physAddr : BitVec 32) (s : State) : State :=
  if physAddr = 0 then s
  else
    let (cnt, ops) := search (fun b => physAddr == b.addr) s.ipuBuf ipuBufMax 0
    -- a search that has found nothing only prints a message
    ipuBufFreeAt cnt { s with log := s.log ++ ops }

/-- The loop of `ipu_write_proc` that frees every buffer. -/
def freeAll : Nat → Nat → State → State
  | 0, _, s => s
  | n + 1, cnt, s =>
    freeAll n (cnt + 1)
      (ipuBufFree (s.ipuBuf cnt).addr { s with log := s.log ++ [.access cnt] })

/-- The loop of `ipu_write_proc` that prints the table. -/
def printAll (s : State) : State :=
  { s with log := s.log ++ (List.range ipuBufMax).map .access }

/-! ### The number written -/

/-- `isxdigit` and the value of the digit. -/
def hexDigit (c : Char) : Option (BitVec 32) :=
  if '0' ≤ c ∧ c ≤ '9' then some (BitVec.ofNat 32 (c.toNat - '0'.toNat))
  else if 'a' ≤ c ∧ c ≤ 'f' then some (BitVec.ofNat 32 (c.toNat - 'a'.toNat + 10))
  else if 'A' ≤ c ∧ c ≤ 'F' then some (BitVec.ofNat 32 (c.toNat - 'A'.toNat + 10))
  else none

/-- The loop of `simple_strtoul`. -/
def strtoulLoop : BitVec 32 → List Char → BitVec 32
  | result, [] => result
  | result, c :: cp =>
    match hexDigit c with
    | some value => strtoulLoop (result * 16 + value) cp
    | none => result

/-- `simple_strtoul(cp, 0, 16)` -/
def simpleStrtoul (cp : List Char) : BitVec 32 :=
  match cp with
  | '0' :: 'x' :: cp => strtoulLoop 0 cp
  | '0' :: 'X' :: cp => strtoulLoop 0 cp
  | cp => strtoulLoop 0 cp

/-- A write to the proc file, with what the page allocator returns if it is asked. -/
structure Write where
  count : Nat
  buffer : List Char
  virt : BitVec 32
  deriving DecidableEq, Repr

/-- `val` of a write that has one: at most eight characters, in hexadecimal. -/
def Write.val (w : Write) : BitVec 32 := simpleStrtoul ((cstr w.buffer 0).take 8)

/-- `ipu_write_proc` once `val` is read. -/
def ipuWriteVal (virt val : BitVec 32) (s : State) : State :=
  if val = 0 then printAll s
  else if 0 < val ∧ val < 10 then ipuBufGet virt val s
  else if val = 0xff then freeAll ipuBufMax 0 s
  else ipuBufFree val s

/-- `ipu_write_proc` -/
def ipuWriteProc (s : State) (w : Write) : State :=
  if w.count = 41 then ipuAddWiredEntry s
  else if w.count ≤ 9 then ipuWriteVal w.virt w.val s
  else if w.count = 44 then ipuAddWiredEntry s
  else s

/-- The state the kernel starts with; the memory behind the table is arbitrary. -/
def boot (behind : Nat → IpuBuf) (reserved : BitVec 32 → Bool) : State where
  ipuBuf := fun i => if i < ipuBufMax then ⟨0, 0⟩ else behind i
  ipuBufCnt := 0
  reserved := reserved
  wired := 0
  log := []

end Dingoo.Ipu
