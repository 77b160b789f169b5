/-
The writes of `write_packet` to a FIFO, in `drivers/usb/gadget/jz4740_udc.c`.

`Linux/Jz4740Udc.lean` notes which bytes of its request a packet takes; here is how they
get there: by words of four bytes, and the rest byte by byte.  The two loops count an
`int` down to zero, so a negative number makes them go round all of its values.
-/
import Dingoo.Linux.Jz4740Udc

namespace Dingoo.Udc

/-- A write to the FIFO, of a word or of a byte. -/
inductive FifoWrite where
  | word (w : BitVec 32)
  | byte (b : BitVec 8)
deriving DecidableEq, Repr

/-- The bytes that come into the FIFO with a write, the lowest first. -/
def FifoWrite.bytes : FifoWrite → List (BitVec 8)
  | .word w => [w.extractLsb' 0 8, w.extractLsb' 8 8, w.extractLsb' 16 8, w.extractLsb' 24 8]
  | .byte b => [b]

def fifoBytes (writes : List FifoWrite) : List (BitVec 8) := writes.flatMap FifoWrite.bytes

/-- The turns of `while (n--)`. -/
def turns (n : Int) : Nat := (BitVec.ofInt 32 n).toNat

section
variable (mem : BitVec 32 → BitVec 8)

/-- `*(u32 *)buf` -/
def loadWord (buf : BitVec 32) : BitVec 32 :=
  mem (buf + 3) ++ mem (buf + 2) ++ mem (buf + 1) ++ mem buf

/-- `while (nlong--)` -/
def writeLongs : Nat → BitVec 32 → List FifoWrite
  | 0, _ => []
  | nlong + 1, buf => .word (loadWord mem buf) :: writeLongs nlong (buf + 4)

/-- `while (nbyte--)` -/
def writeBytes : Nat → BitVec 32 → List FifoWrite
  | 0, _ => []
  | nbyte + 1, buf => .byte (mem buf) :: writeBytes nbyte (buf + 1)

/-- The loops of `write_packet`; `nlong` and `nbyte` are the length shifted and masked. -/
def packetWrites (buf : BitVec 32) (length : Int) : List FifoWrite :=
  let nlong := turns (length / 4)
  let nbyte := turns (length % 4)
  writeLongs mem nlong buf ++ writeBytes mem nbyte (buf + BitVec.ofNat 32 (4 * nlong))

end

end Dingoo.Udc
