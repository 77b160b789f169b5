/-
The two devices of a two-plane NAND chip and the page cache of the NAND core,
`drivers/mtd/nand/nand_base.c`.

If not all partitions use both planes, `nand_scan_tail` makes `jz_mtd1`, a copy of
`jz_mtd` with the sizes of one plane.  The structures are copied, so each device has a
`pagebuf` of its own, the number of the page it read into `databuf` last.  The buffers
are behind a pointer, so `databuf` and `oob_poi` are the same for both.

Offsets are 64 bits wide, lengths are cut to 32 in the routines.  The number of a page
fits into an `int`; its offset, which a write compares with its range, need not.
The transfer of the spare area to the caller of a read, the spare area routines without
data, waiting for the chip and the refresh of the bad block table are left out.  Whether
the chip is write protected and which blocks are bad are arguments.
-/
import Dingoo.Linux.NandWrite

namespace Dingoo.Nand.Cache

open Dingoo.Lib

def EBADMSG : Int := 77

def EUCLEAN : Int := 135

/-! ### The devices -/

inductive Mtd where
  | jzMtd
  | jzMtd1
deriving DecidableEq, Repr

/-- The sizes of `jz_mtd1`. -/
def onePlane (g : Geometry) : Geometry :=
  let pageShift := g.pageShift - 1
  { g with
    planenum := 1
    writesize := g.writesize >>> 1
    oobsize := g.oobsize >>> 1
    erasesize := g.erasesize >>> 1
    pageShift := pageShift
    pagemask := (g.chipsize >>> pageShift) - 1 }

/-- `mtd->subpage_sft`; `allowed` unless the chip is MLC or has `NAND_NO_SUBPAGE_WRITE`. -/
def subpageSft (allowed : Bool) (steps : Nat) : Nat :=
  if allowed then
    match steps with
    | 2 => 1
    | 4 => 2
    | 8 => 2
    | _ => 0
  else 0

/-- The chip as `nand_scan_ident` finds it, and the ECC unit. -/
structure Board where
  rs : RsUnit
  g : Geometry
  eccpos : List Nat
  oobfree : List (Nat × Nat)
  iplOob : Bool
  subpages : Bool
  writeProtected : Bool
  bad : Mtd → Nat → Bool

namespace Board

variable (b : Board)

def geometry : Mtd → Geometry
  | .jzMtd => b.g
  | .jzMtd1 => onePlane b.g

def subpagesize : Mtd → Nat
  | .jzMtd => b.g.writesize >>> subpageSft b.subpages b.g.eccSteps
  | .jzMtd1 => (onePlane b.g).writesize

def physEraseShift : Mtd → Nat
  | .jzMtd => ffs b.g.erasesize - 1
  | .jzMtd1 => ffs b.g.erasesize - 1 - 1

/-- The device a write goes to; no page fails to program. -/
def writeDev (m : Mtd) : WriteDev where
  rs := b.rs
  g := b.geometry m
  iplOob := b.iplOob
  eccpos := b.eccpos
  oobfree := b.oobfree
  subpagesize := b.subpagesize m
  writeProtected := b.writeProtected
  fails := fun _ _ => false
  oobPoi := []

end Board

/-- The chip, the buffers, and what each device has of its own. -/
structure MtdState where
  chip : Chip
  databuf : List UInt8
  oobPoi : List UInt8
  /-- `none` is -1 -/
  pagebuf : Mtd → Option Nat
  stats : Mtd → EccStats

def MtdState.setPagebuf (s : MtdState) (m : Mtd) (page : Option Nat) : MtdState :=
  { s with pagebuf := fun k => if k = m then page else s.pagebuf k }

def MtdState.setStats (s : MtdState) (m : Mtd) (stats : EccStats) : MtdState :=
  { s with stats := fun k => if k = m then stats else s.stats k }

/-! ### The chip with one plane -/

/-- `NAND_CMD_PAGEPROG` after a single load. -/
def pageprogSingle (chip : Chip) : Chip :=
  match chip.load80 with
  | some l => { chip with cells := l.program l.page chip.cells, load80 := none }
  | none => chip

/-- The chip erases the block of this page. -/
def eraseBlock (ppb page : Nat) (chip : Chip) : Chip :=
  { chip with cells := fun p c => if p / ppb = page / ppb then 0xff else chip.cells p c }

/-- `chip->erase_cmd`.  Of two blocks the chip erases the one named last and the one below. -/
def eraseCmd (b : Board) (m : Mtd) (page : Nat) (chip : Chip) : Chip :=
  match m with
  | .jzMtd =>
    let second := (singleEraseCmdPlanes b.g page).2
    eraseBlock b.g.ppb second (eraseBlock b.g.ppb (second - b.g.ppb) chip)
  | .jzMtd1 => eraseBlock (onePlane b.g).ppb page chip

/-! ### Reading -/

/-- `nand_read_page_hwecc_rs`: the data, `oob_poi`, the chip and the statistics. -/
def nandReadPageHweccRs (rs : RsUnit) (g : Geometry) (eccpos : List Nat) (chip : Chip)
    (page : Nat) (oobPoi : List UInt8) (stats : EccStats) :
    List UInt8 × List UInt8 × Chip × EccStats :=
  let chip := chip.readoob g 0 page
  let (bytes, chip) := chip.readBuf g.oobsize
  let oobPoi := overwrite oobPoi 0 bytes
  let eccCode := (eccpos.take g.eccTotal).map fun pos => oobPoi.getD pos 0
  let flag := eccCode.any (· ≠ 0xff)
  let chip := chip.rndout 0
  let (p, chip, stats) := readSteps rs flag g.eccSteps chip eccCode stats
  (p, oobPoi, chip, stats)

/-- `nand_read_page_raw`, from wherever the chip was left. -/
def nandReadPageRaw (g : Geometry) (chip : Chip) (oobPoi : List UInt8) :
    List UInt8 × List UInt8 × Chip :=
  let (p, chip) := chip.readBuf g.writesize
  let (bytes, chip) := chip.readBuf g.oobsize
  (p, overwrite oobPoi 0 bytes, chip)

/-- `chip->ecc.read_page` or `chip->ecc.read_page_raw`. -/
def readPage (b : Board) (m : Mtd) (mode : OobMode) (page : Nat) (s : MtdState) :
    List UInt8 × MtdState :=
  if mode = .raw then
    let (p, oobPoi, chip) := nandReadPageRaw (b.geometry m) s.chip s.oobPoi
    (p, { s with oobPoi := oobPoi, chip := chip })
  else
    let (p, oobPoi, chip, stats) := match m with
      | .jzMtd => nandReadPageHweccRsPlanes b.rs b.g b.eccpos s.chip page s.oobPoi (s.stats m)
      | .jzMtd1 =>
        nandReadPageHweccRs b.rs (onePlane b.g) b.eccpos s.chip page s.oobPoi (s.stats m)
    (p, { s with oobPoi := oobPoi, chip := chip }.setStats m stats)

/-- One turn of the loop of `nand_do_read_ops`: the bytes stored at `buf`. -/
def readTurn (b : Board) (m : Mtd) (ops : OobOps) (col bytes realpage : Nat) (s : MtdState) :
    List UInt8 × MtdState :=
  let g := b.geometry m
  if s.pagebuf m ≠ some realpage ∨ ops.oobbuf.isSome then
    let (p, s) := readPage b m ops.mode (realpage &&& g.pagemask) s
    let (data, s) :=
      if bytes = g.writesize then (p, s)
      else
        let s := { s with databuf := splice s.databuf 0 p }.setPagebuf m (some realpage)
        ((s.databuf.drop col).take bytes, s)
    -- raw mode does data:oob:data:oob
    if ops.oobbuf.isSome ∧ ops.mode = .raw then
      (data ++ (s.oobPoi.drop ops.ooboffs).take g.oobsize, s)
    else (data, s)
  else ((s.databuf.drop col).take bytes, s)

/-- The loop of `nand_do_read_ops`, for at most `fuel` pages. -/
def readTurns (b : Board) (m : Mtd) (ops : OobOps) : Nat → Nat → Nat → Nat → MtdState →
    List UInt8 × MtdState
  | 0, _, _, _, s => ([], s)
  | fuel + 1, col, readlen, realpage, s =>
    let bytes := min ((b.geometry m).writesize - col) readlen
    let (data, s) := readTurn b m ops col bytes realpage s
    if readlen - bytes = 0 then (data, s)
    else
      let (rest, s) := readTurns b m ops fuel 0 (readlen - bytes) (realpage + 1) s
      (data ++ rest, s)

/-- `nand_do_read_ops`: the value returned, the data and the state. -/
def nandDoReadOps (b : Board) (m : Mtd) (fromOffs : Nat) (ops : OobOps) (s : MtdState) :
    Int × List UInt8 × MtdState :=
  let g := b.geometry m
  let readlen := ops.len % 2 ^ 32
  let (data, s') := readTurns b m ops (readlen + 1) (fromOffs &&& (g.writesize - 1)) readlen
    (fromOffs >>> g.pageShift) s
  let ret :=
    if (s'.stats m).failed - (s.stats m).failed ≠ 0 then -EBADMSG
    else if (s'.stats m).corrected - (s.stats m).corrected ≠ 0 then -EUCLEAN
    else 0
  (ret, data, s')

/-! ### Writing -/

/-- `nand_write_page`; with two planes raw mode makes no difference. -/
def writePage (b : Board) (m : Mtd) (ops : OobOps) (page : Nat) (buf : List UInt8)
    (s : MtdState) : MtdState :=
  match m with
  | .jzMtd =>
    let (chip, oobPoi) := nandWritePage b.rs b.g b.eccpos s.chip page buf s.oobPoi
    { s with chip := chip, oobPoi := oobPoi }
  | .jzMtd1 =>
    let d := b.writeDev m
    let (data, oobPoi) := nandWritePageData d ops buf s.oobPoi
    let chip := s.chip.cmd80 0 page
    let chip := (chip.writeBuf data).writeBuf (oobPoi.take d.g.oobsize)
    { s with chip := pageprogSingle chip, oobPoi := oobPoi }

/-- One turn of the loop of `nand_do_write_ops`: what is left of the client's spare bytes. -/
def writeTurn (b : Board) (m : Mtd) (ops : OobOps) (column writelen realpage : Nat)
    (buf : List UInt8) (oob : Option (List UInt8)) (s : MtdState) :
    Option (List UInt8) × MtdState :=
  let d := b.writeDev m
  let wbuf := turnBuf d.g column writelen buf
  let s :=
    -- a partial page goes through `databuf`
    if column ≠ 0 ∨ writelen < d.g.writesize - 1 then
      { s with databuf := splice s.databuf 0 wbuf }.setPagebuf m none
    else s
  let (oob, oobPoi) := turnOob d ops oob s.oobPoi
  (oob, writePage b m ops (realpage &&& d.g.pagemask) wbuf { s with oobPoi := oobPoi })

/-- The loop of `nand_do_write_ops`, for at most `fuel` pages. -/
def writeTurns (b : Board) (m : Mtd) (ops : OobOps) : Nat → Nat → Nat → Nat → List UInt8 →
    Option (List UInt8) → MtdState → MtdState
  | 0, _, _, _, _, _, s => s
  | fuel + 1, column, writelen, realpage, buf, oob, s =>
    let bytes := turnBytes (b.geometry m) column writelen
    let (oob, s) := writeTurn b m ops column writelen realpage buf oob s
    if writelen - bytes = 0 then s
    else writeTurns b m ops fuel 0 (writelen - bytes) (realpage + 1) (buf.drop bytes) oob s

/-- `chip->pagebuf << chip->page_shift`, an `int`, as it is compared with an offset. -/
def pagebufOffs (pagebuf pageShift : Nat) : Nat :=
  ((BitVec.ofNat 32 pagebuf <<< pageShift).signExtend 64).toNat

/-- The page cache is given up if its page starts in the range written. -/
def invalidate (b : Board) (m : Mtd) (toOffs len : Nat) (s : MtdState) : MtdState :=
  match s.pagebuf m with
  | none => s
  | some page =>
    let offs := pagebufOffs page (b.geometry m).pageShift
    if toOffs ≤ offs ∧ offs < toOffs + len then s.setPagebuf m none else s

/-- `nand_do_write_ops` -/
def nandDoWriteOps (b : Board) (m : Mtd) (toOffs : Nat) (ops : OobOps) (s : MtdState) :
    Int × MtdState :=
  let d := b.writeDev m
  let writelen := ops.len % 2 ^ 32
  if writelen = 0 then (0, s)
  else if toOffs &&& (d.subpagesize - 1) ≠ 0 ∨ ops.len &&& (d.subpagesize - 1) ≠ 0 then
    (-EINVAL, s)
  else
    let column := toOffs &&& (d.g.writesize - 1)
    let subpage := column ≠ 0 ∨ writelen &&& (d.g.writesize - 1) ≠ 0
    if subpage ∧ ops.oobbuf.isSome then (-EINVAL, s)
    else if d.writeProtected then (- EIO, s)
    else
      let s := invalidate b m toOffs ops.len s
      let s := if ops.oobbuf.isNone then { s with oobPoi := splice s.oobPoi 0 (blankOob d) } else s
      (0, writeTurns b m ops writelen column writelen (toOffs >>> d.g.pageShift) ops.datbuf
        ops.oobbuf s)

/-! ### Erasing -/

/-- The page cache is given up if its page is in the block erased. -/
def invalidateBlock (m : Mtd) (page pagesPerBlock : Nat) (s : MtdState) : MtdState :=
  match s.pagebuf m with
  | none => s
  | some cached =>
    if page ≤ cached ∧ cached < page + pagesPerBlock then s.setPagebuf m none else s

/-- The loop of `nand_erase_nand`, for at most `fuel` blocks: whether all were erased. -/
def eraseTurns (b : Board) (m : Mtd) : Nat → Nat → Nat → MtdState → Bool × MtdState
  | 0, _, _, s => (true, s)
  | fuel + 1, len, page, s =>
    if len = 0 then (true, s)
    else
      let g := b.geometry m
      let pagesPerBlock := 1 <<< (b.physEraseShift m - g.pageShift)
      if b.bad m (page <<< g.pageShift) then (false, s)
      else
        let s := invalidateBlock m page pagesPerBlock s
        let s := { s with chip := eraseCmd b m (page &&& g.pagemask) s.chip }
        eraseTurns b m fuel (len - 1 <<< b.physEraseShift m) (page + pagesPerBlock) s

/-- `nand_erase_nand` -/
def nandEraseNand (b : Board) (m : Mtd) (addr len : Nat) (s : MtdState) : Int × MtdState :=
  let g := b.geometry m
  let blocksize := 1 <<< b.physEraseShift m
  if addr &&& (blocksize - 1) ≠ 0 then (-EINVAL, s)
  else if len &&& (blocksize - 1) ≠ 0 then (-EINVAL, s)
  else if g.chipsize < len + addr then (-EINVAL, s)
  else if b.writeProtected then (- EIO, s)
  else
    let len := len % 2 ^ 32
    let (done, s) := eraseTurns b m len len (addr >>> g.pageShift) s
    (if done then 0 else - EIO, s)

/-! ### The calls -/

/-- The calls of the two devices: `mtd->read`, `mtd->read_oob` and `mtd->write_oob` with a data
buffer, `mtd->write` and `mtd->erase`. -/
inductive Call where
  | read (m : Mtd) (fromOffs len : Nat)
  | readOob (m : Mtd) (fromOffs : Nat) (ops : OobOps)
  | write (m : Mtd) (toOffs : Nat) (buf : List UInt8)
  | writeOob (m : Mtd) (toOffs : Nat) (ops : OobOps)
  | erase (m : Mtd) (addr len : Nat)

def Call.mtd : Call → Mtd
  | .read m _ _ => m
  | .readOob m _ _ => m
  | .write m _ _ => m
  | .writeOob m _ _ => m
  | .erase m _ _ => m

/-- `chip->ops` as `nand_read` and `nand_write` fill it; its mode stays `MTD_OOB_PLACE`. -/
def plainOps (len : Nat) (datbuf : List UInt8) : OobOps :=
  { mode := .place, len := len, ooblen := 0, ooboffs := 0, datbuf := datbuf, oobbuf := none }

def nandRead (b : Board) (m : Mtd) (fromOffs len : Nat) (s : MtdState) :
    Int × List UInt8 × MtdState :=
  if b.g.chipsize < fromOffs + len then (-EINVAL, [], s)
  else if len = 0 then (0, [], s)
  else nandDoReadOps b m fromOffs (plainOps len []) s

def nandReadOob (b : Board) (m : Mtd) (fromOffs : Nat) (ops : OobOps) (s : MtdState) :
    Int × List UInt8 × MtdState :=
  if b.g.chipsize < fromOffs + ops.len then (-EINVAL, [], s)
  else nandDoReadOps b m fromOffs ops s

def nandWrite (b : Board) (m : Mtd) (toOffs : Nat) (buf : List UInt8) (s : MtdState) :
    Int × MtdState :=
  if b.g.chipsize < toOffs + buf.length then (-EINVAL, s)
  else if buf.length = 0 then (0, s)
  else nandDoWriteOps b m toOffs (plainOps buf.length buf) s

def nandWriteOob (b : Board) (m : Mtd) (toOffs : Nat) (ops : OobOps) (s : MtdState) :
    Int × MtdState :=
  if b.g.chipsize < toOffs + ops.len then (-EINVAL, s)
  else nandDoWriteOps b m toOffs ops s

def step (b : Board) (s : MtdState) : Call → MtdState
  | .read m fromOffs len => (nandRead b m fromOffs len s).2.2
  | .readOob m fromOffs ops => (nandReadOob b m fromOffs ops s).2.2
  | .write m toOffs buf => (nandWrite b m toOffs buf s).2
  | .writeOob m toOffs ops => (nandWriteOob b m toOffs ops s).2
  | .erase m addr len => (nandEraseNand b m addr len s).2

end Dingoo.Nand.Cache
