/-
The Hamming code of the NAND driver: the software code of `drivers/mtd/nand/nand_ecc.c` and
the correction of `drivers/mtd/nand/jz4740_nand.c` that goes with it.

A block of 256 bytes has a code of 22 bits in three bytes: for every bit of a byte's index
in the block and of a bit's index in its byte one parity over the bits that have it set and
one over those that have it clear.  The code bytes are in the order used without
`CONFIG_MTD_NAND_ECC_SMC`.  `u_char` and `uint8_t` are `BitVec 8`; the counters of the
correction, which stay below 25, are naturals.
-/
import Mathlib.Algebra.Group.Nat.Defs
import Mathlib.Data.List.Basic

namespace Dingoo.NandEcc

/-- The 256 bytes a code is for. -/
structure Block where
  bytes : List (BitVec 8)
  size : bytes.length = 256

/-- `ecc_code[0..2]` -/
structure Ecc where
  code0 : BitVec 8
  code1 : BitVec 8
  code2 : BitVec 8
  deriving DecidableEq, Repr

/-! ### The code -/

def nandEccPrecalcTable : List (BitVec 8) :=
  [ 0x00, 0x55, 0x56, 0x03, 0x59, 0x0c, 0x0f, 0x5a, 0x5a, 0x0f, 0x0c, 0x59, 0x03, 0x56, 0x55, 0x00,
    0x65, 0x30, 0x33, 0x66, 0x3c, 0x69, 0x6a, 0x3f, 0x3f, 0x6a, 0x69, 0x3c, 0x66, 0x33, 0x30, 0x65,
    0x66, 0x33, 0x30, 0x65, 0x3f, 0x6a, 0x69, 0x3c, 0x3c, 0x69, 0x6a, 0x3f, 0x65, 0x30, 0x33, 0x66,
    0x03, 0x56, 0x55, 0x00, 0x5a, 0x0f, 0x0c, 0x59, 0x59, 0x0c, 0x0f, 0x5a, 0x00, 0x55, 0x56, 0x03,
    0x69, 0x3c, 0x3f, 0x6a, 0x30, 0x65, 0x66, 0x33, 0x33, 0x66, 0x65, 0x30, 0x6a, 0x3f, 0x3c, 0x69,
    0x0c, 0x59, 0x5a, 0x0f, 0x55, 0x00, 0x03, 0x56, 0x56, 0x03, 0x00, 0x55, 0x0f, 0x5a, 0x59, 0x0c,
    0x0f, 0x5a, 0x59, 0x0c, 0x56, 0x03, 0x00, 0x55, 0x55, 0x00, 0x03, 0x56, 0x0c, 0x59, 0x5a, 0x0f,
    0x6a, 0x3f, 0x3c, 0x69, 0x33, 0x66, 0x65, 0x30, 0x30, 0x65, 0x66, 0x33, 0x69, 0x3c, 0x3f, 0x6a,
    0x6a, 0x3f, 0x3c, 0x69, 0x33, 0x66, 0x65, 0x30, 0x30, 0x65, 0x66, 0x33, 0x69, 0x3c, 0x3f, 0x6a,
    0x0f, 0x5a, 0x59, 0x0c, 0x56, 0x03, 0x00, 0x55, 0x55, 0x00, 0x03, 0x56, 0x0c, 0x59, 0x5a, 0x0f,
    0x0c, 0x59, 0x5a, 0x0f, 0x55, 0x00, 0x03, 0x56, 0x56, 0x03, 0x00, 0x55, 0x0f, 0x5a, 0x59, 0x0c,
    0x69, 0x3c, 0x3f, 0x6a, 0x30, 0x65, 0x66, 0x33, 0x33, 0x66, 0x65, 0x30, 0x6a, 0x3f, 0x3c, 0x69,
    0x03, 0x56, 0x55, 0x00, 0x5a, 0x0f, 0x0c, 0x59, 0x59, 0x0c, 0x0f, 0x5a, 0x00, 0x55, 0x56, 0x03,
    0x66, 0x33, 0x30, 0x65, 0x3f, 0x6a, 0x69, 0x3c, 0x3c, 0x69, 0x6a, 0x3f, 0x65, 0x30, 0x33, 0x66,
    0x65, 0x30, 0x33, 0x66, 0x3c, 0x69, 0x6a, 0x3f, 0x3f, 0x6a, 0x69, 0x3c, 0x66, 0x33, 0x30, 0x65,
    0x00, 0x55, 0x56, 0x03, 0x59, 0x0c, 0x0f, 0x5a, 0x5a, 0x0f, 0x0c, 0x59, 0x03, 0x56, 0x55, 0x00 ]

/-- The parities gathered by the loop of `nand_calculate_ecc`. -/
structure Regs where
  reg1 : BitVec 8
  reg2 : BitVec 8
  reg3 : BitVec 8
  deriving DecidableEq, Repr

/-- One turn of the loop, for byte `i` of the block. -/
def eccStep (i : Nat) (b : BitVec 8) (r : Regs) : Regs :=
  let idx := nandEccPrecalcTable.getD b.toNat 0
  let reg1 := r.reg1 ^^^ (idx &&& 0x3f)
  if idx &&& 0x40 ≠ 0 then
    { reg1 := reg1
      reg3 := r.reg3 ^^^ BitVec.ofNat 8 i
      reg2 := r.reg2 ^^^ ~~~(BitVec.ofNat 8 i) }
  else { r with reg1 := reg1 }

def eccLoop : Nat → List (BitVec 8) → Regs → Regs
  | _, [], r => r
  | i, b :: dat, r => eccLoop (i + 1) dat (eccStep i b r)

/-- The upper halves of the line parities, interleaved. -/
def lineHigh (r : Regs) : BitVec 8 :=
  (r.reg3 &&& 0x80#8) >>> 0 ||| (r.reg2 &&& 0x80#8) >>> 1 ||| (r.reg3 &&& 0x40#8) >>> 1 |||
    (r.reg2 &&& 0x40#8) >>> 2 ||| (r.reg3 &&& 0x20#8) >>> 2 ||| (r.reg2 &&& 0x20#8) >>> 3 |||
    (r.reg3 &&& 0x10#8) >>> 3 ||| (r.reg2 &&& 0x10#8) >>> 4

/-- The lower halves of the line parities, interleaved. -/
def lineLow (r : Regs) : BitVec 8 :=
  (r.reg3 &&& 0x08#8) <<< 4 ||| (r.reg2 &&& 0x08#8) <<< 3 ||| (r.reg3 &&& 0x04#8) <<< 3 |||
    (r.reg2 &&& 0x04#8) <<< 2 ||| (r.reg3 &&& 0x02#8) <<< 2 ||| (r.reg2 &&& 0x02#8) <<< 1 |||
    (r.reg3 &&& 0x01#8) <<< 1 ||| (r.reg2 &&& 0x01#8) <<< 0

def nandCalculateEcc (dat : Block) : Ecc :=
  let r := eccLoop 0 dat.bytes ⟨0, 0, 0⟩
  let tmp1 := lineHigh r
  let tmp2 := lineLow r
  ⟨~~~tmp1, ~~~tmp2, ((~~~r.reg1) <<< 2) ||| 0x03#8⟩

/-! ### The correction -/

/-- `for (i=0; i<n; i++) { if (d & c) add |= a; c >>= 2; a >>= 1; }`: `add` and `a`. -/
def gather : Nat → BitVec 8 → BitVec 8 → BitVec 8 → BitVec 8 → BitVec 8 × BitVec 8
  | 0, _, _, a, add => (add, a)
  | n + 1, d, c, a, add => gather n d (c >>> 2) (a >>> 1) (if d &&& c ≠ 0 then add ||| a else add)

/-- `while (d) { if (d & 0x01) ++i; d >>= 1; }`; a byte is zero after eight turns. -/
def countBits : Nat → BitVec 8 → Nat → Nat
  | 0, _, i => i
  | n + 1, d, i =>
    if d = 0 then i else countBits n (d >>> 1) (if d &&& 0x01 ≠ 0 then i + 1 else i)

/-- `dat[add] ^= b` -/
def Block.xorAt (dat : Block) (add : Nat) (b : BitVec 8) : Block :=
  ⟨dat.bytes.modify add (· ^^^ b), by rw [List.length_modify, dat.size]⟩

/-- The value returned, the data and `read_ecc`. -/
def jzsocNandHmCorrectData (dat : Block) (readEcc calcEcc : Ecc) : Int × Block × Ecc :=
  let d1 := calcEcc.code0 ^^^ readEcc.code0
  let d2 := calcEcc.code1 ^^^ readEcc.code1
  let d3 := calcEcc.code2 ^^^ readEcc.code2
  if d1 ||| d2 ||| d3 = 0 then (0, dat, readEcc)
  else
    let a := (d1 ^^^ (d1 >>> 1)) &&& 0x55#8
    let b := (d2 ^^^ (d2 >>> 1)) &&& 0x55#8
    let c := (d3 ^^^ (d3 >>> 1)) &&& 0x54#8
    if a = 0x55#8 ∧ b = 0x55#8 ∧ c = 0x54#8 then
      let (add, a) := gather 4 d1 0x80 0x80 0
      let (add, _) := gather 4 d2 0x80 a add
      let (bit, _) := gather 3 d3 0x80 0x04 0
      (0, dat.xorAt add.toNat (0x01#8 <<< bit.toNat), readEcc)
    else
      let i := countBits 8 d3 (countBits 8 d2 (countBits 8 d1 0))
      if i = 1 then (0, dat, calcEcc) else (-1, dat, readEcc)

end Dingoo.NandEcc
