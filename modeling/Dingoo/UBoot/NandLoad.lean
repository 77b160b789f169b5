/-
The loader of the first stage: `nand_load` of `nand_spl/board/a320/nand_boot_jz4740.c`, with
`nand_read_oob` and `nand_read_page`.

The board is configured for pages of 2048 bytes with 64 bytes of spare area, blocks of 128
pages and an 8-bit bus with three row cycles; the branches for other configurations are
compiled out.  The chip latches the address bytes that follow READ0, loads the page at
READSTART and then hands out one byte per read.

Memory is a function on addresses.  A block of 512 bytes is read, checked and corrected in
place; it is stored here when it is done.  The error unit counts symbols from 1, so a
correction stays inside its block.
-/
import Dingoo.UBoot.RsCorrect

namespace Dingoo.NandSpl

open Dingoo.Nand

/-- `CFG_NAND_PAGE_SIZE` -/
def pageSize : Nat := 2048

/-- `CFG_NAND_PAGE_PER_BLOCK` -/
def pagePerBlock : Nat := 128

/-- `CFG_NAND_OOB_SIZE` -/
def oobSize : Nat := 64

/-- `CFG_NAND_BADBLOCK_PAGE` -/
def badblockPage : Nat := 127

/-- `CFG_NAND_BAD_BLOCK_POS` -/
def badBlockPos : Nat := 0

/-- The error unit; the symbols of its reports are counted from 1. -/
structure SymbolUnit extends RsUnit where
  index_pos : ∀ data par k, 1 ≤ ((decode data par).report k).1

/-- `image_weird_ecc`, `image_offs` and `image_size`. -/
structure Image where
  weirdEcc : Bool
  offs : Nat
  size : Nat

/-- The address latches of the chip and the position of the next byte it hands out. -/
structure Bus where
  addr : List Nat
  row : Nat
  col : Nat

structure State where
  bus : Bus
  mem : Nat → UInt8
  /-- `image_dst` -/
  imageDst : Nat
  /-- log: the pages read by `nand_read_page` -/
  copied : List Nat

abbrev M := StateM State

/-- The bytes `l` written at address `a`. -/
def store (mem : Nat → UInt8) (a : Nat) (l : List UInt8) : Nat → UInt8 := fun x =>
  if a ≤ x ∧ x < a + l.length then l.getD (x - a) 0 else mem x

section

variable (rs : SymbolUnit) (cells : Nat → Nat → UInt8)

/-! ### The bus -/

/-- `__nand_cmd(NAND_CMD_READ0)` -/
def cmdRead0 : M Unit := modify fun s => { s with bus := { s.bus with addr := [] } }

/-- `__nand_addr` -/
def nandAddr (n : Nat) : M Unit :=
  modify fun s => { s with bus := { s.bus with addr := s.bus.addr ++ [n] } }

/-- `__nand_cmd(NAND_CMD_READSTART)`: two column bytes and three row bytes have been latched. -/
def cmdReadStart : M Unit := modify fun s =>
  let byte (k : Nat) : Nat := s.bus.addr.getD k 0
  { s with bus :=
      { s.bus with
        col := byte 0 + 256 * byte 1
        row := byte 2 + 256 * byte 3 + 65536 * byte 4 } }

/-- `__nand_data8` -/
def nandData8 : M UInt8 := fun s =>
  (cells s.bus.row s.bus.col, { s with bus := { s.bus with col := s.bus.col + 1 } })

/-- `nand_read_buf` -/
def nandReadBuf : Nat → M (List UInt8)
  | 0 => return []
  | count + 1 => do
      let b ← nandData8 cells
      let rest ← nandReadBuf count
      return b :: rest

/-- The commands and addresses of a read. -/
def sendRead (colAddr pageAddr : Nat) : M Unit := do
  cmdRead0
  nandAddr (colAddr &&& 0xff)
  nandAddr ((colAddr >>> 8) &&& 0xff)
  nandAddr (pageAddr &&& 0xff)
  nandAddr ((pageAddr >>> 8) &&& 0xff)
  nandAddr ((pageAddr >>> 16) &&& 0xff)
  cmdReadStart

/-! ### Pages -/

/-- `nand_read_oob` -/
def nandReadOob (pageAddr size : Nat) : M (List UInt8) := do
  sendRead pageSize pageAddr
  nandReadBuf cells size

/-- The parity bytes of block `i`. -/
def parity (weirdEcc : Bool) (oobBuf : List UInt8) (i : Nat) : List UInt8 :=
  (List.range 9).map fun j =>
    if weirdEcc then oobBuf.getD (4 + i * 12 + j) 0 else oobBuf.getD (6 + i * 9 + j) 0

/-- The block after decoding: the reports of `EMC_NFERR3` down to `EMC_NFERR0` are applied. -/
def decodeBlock (data par : List UInt8) : List UInt8 :=
  let stat := rs.decode data par
  let correct := fun dat k => rsCorrect dat (stat.report k).1 (stat.report k).2
  if stat.err then
    if stat.uncor then data
    else
      match stat.errcnt with
      | 4 => [3, 2, 1, 0].foldl correct data
      | 3 => [2, 1, 0].foldl correct data
      | 2 => [1, 0].foldl correct data
      | 1 => [0].foldl correct data
      | _ => data
  else data

/-- The loop over the blocks of a page, `count` of them from block `i` on. -/
def readBlocks (weirdEcc : Bool) (dst : Nat) (oobBuf : List UInt8) : Nat → Nat → M Unit
  | 0, _ => return ()
  | count + 1, i => do
      let data ← nandReadBuf cells 512
      let data := decodeBlock rs data (parity weirdEcc oobBuf i)
      modify fun s => { s with mem := store s.mem (dst + i * 512) data }
      readBlocks weirdEcc dst oobBuf count (i + 1)

/-- `nand_read_page` -/
def nandReadPage (weirdEcc : Bool) (pageAddr dst : Nat) : M Unit := do
  modify fun s => { s with copied := s.copied ++ [pageAddr] }
  let oobBuf ← nandReadOob cells pageAddr oobSize
  sendRead 0 pageAddr
  readBlocks rs cells weirdEcc dst oobBuf 4 0

/-! ### The image -/

/-- The test at the start of a block. -/
def skipsBlock (page : Nat) : M Bool := do
  if page % pagePerBlock = 0 then
    let oobBuf ← nandReadOob cells (page + badblockPage) oobSize
    return decide (oobBuf.getD badBlockPos 0 ≠ 0xff)
  else return false

/-- The loop of `nand_load`, for at most `fuel` rounds. -/
def loadLoop (img : Image) : Nat → Nat → Nat → State → Option State
  | 0, _, _, _ => none
  | fuel + 1, page, pagecopyCount, s =>
    if pagecopyCount < img.size / pageSize then
      match skipsBlock cells page s with
      | (true, s) => loadLoop img fuel (page + pagePerBlock) pagecopyCount s
      | (false, s) =>
        let s := (nandReadPage rs cells img.weirdEcc page s.imageDst s).2
        let s := { s with imageDst := s.imageDst + pageSize }
        loadLoop img fuel (page + 1) (pagecopyCount + 1) s
    else some s

/-- `nand_load` -/
def nandLoad (img : Image) (fuel : Nat) (s : State) : Option State :=
  loadLoop rs cells img fuel (img.offs / pageSize) 0 s

end

end Dingoo.NandSpl
