/-
The bad block table of a chip driven with two planes, built in `nand_scan_tail` of
`drivers/mtd/nand/nand_base.c` from the table of the same chip driven with one.

A table has two bits per block, four blocks to a byte.  The single-plane table has been
filled by `scan_bbt`; it is a function on byte indices.  The two-plane table is
allocated and cleared here; the indices written are logged.
-/
import Mathlib.Data.BitVec

namespace Dingoo.Nand

/-- The entry of a block. -/
def bbtEntry (byte : Nat → BitVec 8) (block : Nat) : BitVec 8 :=
  (byte (block / 4) >>> (2 * (block % 4))) &&& 3

/-- `isbad_2plane`; its argument is the bit offset of the first of the two blocks. -/
def isbad2plane (bbt : Nat → BitVec 8) (block : Nat) : Bool :=
  ((bbt (block >>> 3) >>> (block &&& 6)) |||
    (bbt ((block + 2) >>> 3) >>> ((block + 2) &&& 6))) &&& 3 ≠ 0

/-- `chip->bbt` while it is built. -/
structure Bbt where
  bytes : List (BitVec 8)
  writes : List Nat
deriving DecidableEq, Repr

/-- One turn of the loop; `i` is the bit offset of a block of two planes. -/
def mergeBlock (bbt : Nat → BitVec 8) (t : Bbt) (i : Nat) : Bbt :=
  if isbad2plane bbt (2 * i) then
    { bytes := t.bytes.modify (i >>> 3) (· ||| (3 : BitVec 8) <<< (i &&& 6))
      writes := t.writes ++ [i >>> 3] }
  else t

/-- The two-plane table of a device: `chipsize` is the size of one chip, `size` that of all,
and `bbtEraseShift` belongs to two-plane blocks. -/
def mergeBbt (bbt : Nat → BitVec 8) (chipsize size bbtEraseShift : Nat) : Bbt :=
  let numblocks := chipsize >>> (bbtEraseShift - 1)
  let len := size >>> (bbtEraseShift + 2)
  ((List.range ((numblocks + 1) / 2)).map (2 * ·)).foldl (mergeBlock bbt)
    ⟨List.replicate len 0, []⟩

end Dingoo.Nand
