/-
The page-read commands behind `nand_do_read_ops`, `drivers/mtd/nand/nand_base.c`, on a
device with one plane and hardware Reed-Solomon ECC.

With `CONFIG_MTD_HW_RS_ECC` the loop over the pages sends no command itself.  It stores
the number of the page in the first four bytes of the buffer the page is to be read to;
`nand_read_page_hwecc_rs` takes it from there and sends `NAND_CMD_READOOB`, and
`nand_read_page_raw` reads whatever the chip has to offer.

Each turn of the loop is logged with where its bytes were read: the page of the last
page-read command sent before and the column.  A page served from `databuf` was read by
an earlier turn, so where that was stays with the buffer.  Waiting for the chip, `chipnr`
and `sndcmd`, which nothing reads in this configuration, are left out.
-/
import Dingoo.Linux.NandCache

namespace Dingoo.Nand.Read

open Dingoo.Lib Dingoo.Nand.Cache

/-! ### The device -/

/-- A device with one plane. -/
structure ReadDev where
  rs : RsUnit
  g : Geometry
  eccpos : List Nat
  oobfree : List (Nat × Nat)
  oobavail : Nat
  planenum : g.planenum ≤ 1
  writesize_pos : 0 < g.writesize
  writesize_blocks : g.writesize % 512 = 0
  /-- `pagemask` is an `int` -/
  pagemask_lt : g.pagemask < 2 ^ 32
  eccpos_lt : ∀ pos ∈ eccpos, pos < g.oobsize

/-- Where bytes were read: the page of the last page-read command, if one was sent, and the
column of the first byte. -/
structure Origin where
  command : Option Nat
  column : Nat
deriving DecidableEq, Repr

structure ReadState where
  chip : Chip
  /-- a page-read command was sent; `chip.row` is the page of the last one -/
  commanded : Bool
  databuf : List UInt8
  /-- where `databuf` was read -/
  bufOrigin : Origin
  oobPoi : List UInt8
  /-- `none` is -1 -/
  pagebuf : Option Nat
  stats : EccStats

/-- Where the next byte is read. -/
def ReadState.origin (s : ReadState) : Origin :=
  ⟨if s.commanded then some s.chip.row else none, s.chip.column⟩

/-- `chip->cmdfunc(mtd, NAND_CMD_READOOB, column, page)` -/
def ReadState.readoob (s : ReadState) (g : Geometry) (column page : Nat) : ReadState :=
  { s with chip := s.chip.readoob g column page, commanded := true }

/-! ### Reading a page -/

/-- `bufpoi[0..3] = page` -/
def storePage (page : Nat) (bufpoi : List UInt8) : List UInt8 :=
  splice bufpoi 0
    [UInt8.ofNat page, UInt8.ofNat (page >>> 8), UInt8.ofNat (page >>> 16),
      UInt8.ofNat (page >>> 24)]

/-- `page = (buf[3]<<24) + (buf[2]<<16) + (buf[1]<<8) + buf[0]` -/
def loadPage (buf : List UInt8) : Nat :=
  ((buf.getD 3 0).toNat <<< 24 + (buf.getD 2 0).toNat <<< 16 + (buf.getD 1 0).toNat <<< 8
    + (buf.getD 0 0).toNat) % 2 ^ 32

/-- `nand_read_page_hwecc_rs`: the data, and where it was read. -/
def nandReadPageHweccRs (d : ReadDev) (buf : List UInt8) (s : ReadState) :
    List UInt8 × Origin × ReadState :=
  let s := s.readoob d.g 0 (loadPage buf)
  let (bytes, chip) := s.chip.readBuf d.g.oobsize
  let oobPoi := overwrite s.oobPoi 0 bytes
  let eccCode := (d.eccpos.take d.g.eccTotal).map fun pos => oobPoi.getD pos 0
  let flag := eccCode.any (· ≠ 0xff)
  let s := { s with chip := chip.rndout 0, oobPoi := oobPoi }
  let (p, chip, stats) := readSteps d.rs flag d.g.eccSteps s.chip eccCode s.stats
  (p, s.origin, { s with chip := chip, stats := stats })

/-- `nand_read_page_raw`: the data, and where it was read. -/
def nandReadPageRaw (d : ReadDev) (s : ReadState) : List UInt8 × Origin × ReadState :=
  let (p, oobPoi, chip) := Cache.nandReadPageRaw d.g s.chip s.oobPoi
  (p, s.origin, { s with oobPoi := oobPoi, chip := chip })

/-- `chip->ecc.read_page_raw` or `chip->ecc.read_page`. -/
def readPage (d : ReadDev) (mode : OobMode) (bufpoi : List UInt8) (s : ReadState) :
    List UInt8 × Origin × ReadState :=
  if mode = .raw then nandReadPageRaw d s else nandReadPageHweccRs d bufpoi s

/-! ### The spare bytes -/

/-- The loop of `nand_transfer_oob` over the free areas of the layout. -/
def transferOobAuto (oobPoi : List UInt8) : List (Nat × Nat) → Nat → Nat → List UInt8
  | [], _, _ => []
  | (offset, length) :: free, roffs, len =>
    if length = 0 ∨ len = 0 then []
    else if length ≤ roffs then transferOobAuto oobPoi free (roffs - length) len
    else
      let bytes := min len (length - roffs)
      (oobPoi.drop (offset + roffs)).take bytes
        ++ transferOobAuto oobPoi free 0 (len - bytes)

/-- `nand_transfer_oob`: the bytes stored at `oob`. -/
def nandTransferOob (d : ReadDev) (ops : OobOps) (len : Nat) (oobPoi : List UInt8) :
    List UInt8 :=
  match ops.mode with
  | .place | .raw => (oobPoi.drop ops.ooboffs).take len
  | .auto => transferOobAuto oobPoi d.oobfree ops.ooboffs len

/-- The spare bytes of one turn, and how many are still wanted. -/
def turnOob (d : ReadDev) (ops : OobOps) (oobreadlen : Nat) (oobPoi : List UInt8) :
    List UInt8 × Nat :=
  if ops.oobbuf.isNone then ([], oobreadlen)
  else if ops.mode ≠ .raw then
    let toread := min oobreadlen d.oobavail
    (nandTransferOob d ops toread oobPoi, oobreadlen - toread)
  -- raw mode does data:oob:data:oob
  else (nandTransferOob d ops d.g.oobsize oobPoi, oobreadlen)

/-! ### The loop -/

/-- One turn of the loop: bytes `col` to `col + bytes` of a page, stored at `buf`. -/
structure Turn where
  page : Nat
  col : Nat
  bytes : Nat
  /-- the turn read the chip in raw mode -/
  raw : Bool
  origin : Origin
  data : List UInt8
  /-- `oob_poi`, if the turn read the chip -/
  spare : Option (List UInt8)
  /-- the spare bytes stored -/
  oob : List UInt8

/-- One turn: what is logged, and how many spare bytes are still wanted. -/
def readTurn (d : ReadDev) (ops : OobOps) (col bytes realpage : Nat) (buf : List UInt8)
    (oobreadlen : Nat) (s : ReadState) : Turn × Nat × ReadState :=
  let page := realpage &&& d.g.pagemask
  if s.pagebuf ≠ some realpage ∨ ops.oobbuf.isSome then
    let bufpoi := storePage page (if bytes = d.g.writesize then buf else s.databuf)
    let (p, origin, s) := readPage d ops.mode bufpoi s
    let (data, s) :=
      if bytes = d.g.writesize then (p, s)
      else
        let databuf := splice bufpoi 0 p
        ((databuf.drop col).take bytes,
          { s with databuf := databuf, bufOrigin := origin, pagebuf := some realpage })
    let (oob, oobreadlen) := turnOob d ops oobreadlen s.oobPoi
    (⟨page, col, bytes, decide (ops.mode = .raw), origin, data, some s.oobPoi, oob⟩,
      oobreadlen, s)
  else
    (⟨page, col, bytes, false, s.bufOrigin, (s.databuf.drop col).take bytes, none, []⟩,
      oobreadlen, s)

/-- The number of bytes a turn stores at `buf`. -/
def turnStored (d : ReadDev) (ops : OobOps) (bytes : Nat) : Nat :=
  if ops.oobbuf.isSome ∧ ops.mode = .raw then bytes + d.g.oobsize else bytes

/-- The loop, for at most `fuel` pages. -/
def readTurns (d : ReadDev) (ops : OobOps) : Nat → Nat → Nat → Nat → List UInt8 → Nat →
    ReadState → List Turn × Nat × ReadState
  | 0, _, _, _, _, oobreadlen, s => ([], oobreadlen, s)
  | fuel + 1, col, readlen, realpage, buf, oobreadlen, s =>
    let bytes := min (d.g.writesize - col) readlen
    let (turn, oobreadlen, s) := readTurn d ops col bytes realpage buf oobreadlen s
    if readlen - bytes = 0 then ([turn], oobreadlen, s)
    else
      let (turns, oobreadlen, s) := readTurns d ops fuel 0 (readlen - bytes) (realpage + 1)
        (buf.drop (turnStored d ops bytes)) oobreadlen s
      (turn :: turns, oobreadlen, s)

/-- What `nand_do_read_ops` returns and stores in `ops`. -/
structure ReadResult where
  ret : Int
  turns : List Turn
  /-- `ops->oobretlen`, if it is set -/
  oobretlen : Option Nat

def nandDoReadOps (d : ReadDev) (fromOffs : Nat) (ops : OobOps) (s : ReadState) :
    ReadResult × ReadState :=
  let readlen := ops.len % 2 ^ 32
  let (turns, oobreadlen, s') := readTurns d ops (readlen + 1)
    (fromOffs &&& (d.g.writesize - 1)) readlen (fromOffs >>> d.g.pageShift) ops.datbuf
    (ops.ooblen % 2 ^ 32) s
  let ret :=
    if s'.stats.failed - s.stats.failed ≠ 0 then -EBADMSG
    else if s'.stats.corrected - s.stats.corrected ≠ 0 then -EUCLEAN
    else 0
  (⟨ret, turns, if ops.oobbuf.isSome then some (ops.ooblen - oobreadlen) else none⟩, s')

/-! ### Runs -/

/-- `nand_do_read_ops`, or another routine that sends a page-read command: `nand_read_oob_std`
and `nand_block_bad` send `NAND_CMD_READOOB` and read `len` bytes. -/
inductive Call where
  | read (fromOffs : Nat) (ops : OobOps)
  | readOob (column page len : Nat)

def step (d : ReadDev) (s : ReadState) : Call → List Turn × ReadState
  | .read fromOffs ops =>
    let (result, s) := nandDoReadOps d fromOffs ops s
    (result.turns, s)
  | .readOob column page len =>
    let s := s.readoob d.g column page
    ([], { s with chip := (s.chip.readBuf len).2 })

/-- The turns of all calls. -/
def run (d : ReadDev) : ReadState → List Call → List Turn × ReadState
  | s, [] => ([], s)
  | s, c :: calls =>
    let (turns, s) := step d s c
    let (rest, s) := run d s calls
    (turns ++ rest, s)

end Dingoo.Nand.Read
