/-
Two-plane access to the NAND chip with Reed-Solomon hardware ECC,
`drivers/mtd/nand/jz4740_nand.c`.

A logical page is a pair of physical pages one block apart.  The chip is what the
routines talk to: two page registers that are loaded after the commands 0x80 and 0x81
and programmed together, and a read pointer.  It stores what was loaded after 0x81 in
the page named there and what was loaded after 0x80 in the page one block below.
Programming can only clear bits.

`ecc.size` is 512 and `ecc.bytes` 9, as `jznand_init` sets them; `ecc.steps` and
`ecc.total` follow from the page size as in `nand_scan_tail`.  Waiting for the chip and
the choice between programmed I/O and DMA in `read_buf` and `write_buf` are left out.
-/
import Dingoo.Linux.NandBase

namespace Dingoo.Nand

/-! ### The chip -/

/-- A page register: the address it was opened with and the bytes streamed in. -/
structure Load where
  column : Nat
  page : Nat
  bytes : List UInt8

structure Chip where
  cells : Nat → Nat → UInt8
  load80 : Option Load := none
  load81 : Option Load := none
  row : Nat := 0
  column : Nat := 0

def Chip.cmd80 (chip : Chip) (column page : Nat) : Chip :=
  { chip with load80 := some ⟨column, page, []⟩, load81 := none }

/-- The first register is closed and kept. -/
def Chip.cmd11 (chip : Chip) : Chip := chip

def Chip.cmd81 (chip : Chip) (column page : Nat) : Chip :=
  { chip with load81 := some ⟨column, page, []⟩ }

/-- `write_buf`, into the register opened last. -/
def Chip.writeBuf (chip : Chip) (bytes : List UInt8) : Chip :=
  match chip.load81 with
  | some l => { chip with load81 := some { l with bytes := l.bytes ++ bytes } }
  | none => { chip with load80 := chip.load80.map fun l => { l with bytes := l.bytes ++ bytes } }

/-- Program a register into a page. -/
def Load.program (l : Load) (page : Nat) (cells : Nat → Nat → UInt8) : Nat → Nat → UInt8 :=
  fun p c =>
    if p = page ∧ l.column ≤ c then
      match l.bytes[c - l.column]? with
      | some b => cells p c &&& b
      | none => cells p c
    else cells p c

/-- `NAND_CMD_PAGEPROG` after a pair of loads. -/
def Chip.pageprog (chip : Chip) (ppb : Nat) : Chip :=
  match chip.load80, chip.load81 with
  | some first, some second =>
    { chip with
      cells := second.program second.page (first.program (second.page - ppb) chip.cells)
      load80 := none
      load81 := none }
  | _, _ => chip

/-- `NAND_CMD_READOOB`, which `nand_command_lp` turns into a read behind the data. -/
def Chip.readoob (chip : Chip) (g : Geometry) (column page : Nat) : Chip :=
  { chip with
    row := page
    column := column + if g.planenum > 1 then g.writesize / g.planenum else g.writesize }

def Chip.rndout (chip : Chip) (column : Nat) : Chip := { chip with column := column }

/-- `read_buf` of `len` bytes from the read pointer on. -/
def Chip.readBuf (chip : Chip) (len : Nat) : List UInt8 × Chip :=
  ((List.range len).map fun i => chip.cells chip.row (chip.column + i),
    { chip with column := chip.column + len })

/-! ### The ECC unit -/

/-- `EMC_NFINTS` after decoding, and the error reports `EMC_NFERR0..3` as (index, mask). -/
structure RsStatus where
  err : Bool
  uncor : Bool
  errcnt : Nat
  report : Nat → Nat × Nat

/-- The Reed-Solomon unit: the parity of a data block, and what it reports when a block is
read together with a parity.  A block read with its own parity has no error. -/
structure RsUnit where
  encode : List UInt8 → List UInt8
  decode : List UInt8 → List UInt8 → RsStatus
  encode_length : ∀ data, (encode data).length = 9
  decode_encode : ∀ data, (decode data (encode data)).err = false

/-- `dat[i] ^= v`; a stray write below the buffer is not part of `dat`. -/
def xorAt (dat : List UInt8) (i : Int) (v : Nat) : List UInt8 :=
  if 0 ≤ i then dat.modify i.toNat (· ^^^ UInt8.ofNat v) else dat

def jzsocRsCorrect (dat : List UInt8) (idx : Int) (mask : Nat) : List UInt8 :=
  let idx := idx - 1
  let i := idx + (idx >>> (3 : Nat))
  if i ≥ 512 then dat
  else
    let mask := mask <<< (idx % 8).toNat
    let dat := xorAt dat i (mask &&& 0xff)
    if i < 511 then xorAt dat (i + 1) ((mask >>> 8) &&& 0xff) else dat

/-- The corrected block and the value returned. -/
def jzsocNandRsCorrectData (rs : RsUnit) (dat readEcc : List UInt8) : List UInt8 × Int :=
  let stat := rs.decode dat readEcc
  let correct := fun dat k => jzsocRsCorrect dat (stat.report k).1 (stat.report k).2
  if stat.err then
    if stat.uncor then (dat, -1)
    else
      match stat.errcnt with
      | 4 => ([3, 2, 1, 0].foldl correct dat, 0)
      | 3 => ([2, 1, 0].foldl correct dat, 0)
      | 2 => ([1, 0].foldl correct dat, 0)
      | 1 => ([0].foldl correct dat, 0)
      | _ => (dat, 0)
  else (dat, 0)

/-! ### Layouts -/

/-- The ECC positions in the spare area of one physical page of `steps` blocks. -/
structure Layout (steps oobsize : Nat) where
  eccpos : List Nat
  length_eccpos : eccpos.length = steps * 9
  nodup : eccpos.Nodup
  bound : ∀ pos ∈ eccpos, pos < oobsize

/-- `nand_oob_64` under `CONFIG_MTD_HW_RS_ECC` -/
def nandOob64 : Layout 4 64 := ⟨List.range' 28 36, by decide, by decide, by decide⟩

/-- `nand_oob_64` under `CONFIG_MTD_NAND_JZ4740_IPL_OOB` -/
def nandOob64Ipl : Layout 4 64 := ⟨List.range' 6 36, by decide, by decide, by decide⟩

/-! ### Pages of the pair -/

/-- The first physical page of a logical page; the second lies `ppb` above. -/
def planePage (ppb globalPage : Nat) : Nat := (globalPage / ppb) * ppb + globalPage

/-- The page sent with the first of two commands: only the die select bit matters. -/
def firstPlaneAddress (g : Geometry) (page : Nat) : Nat :=
  if g.realplanenum = 2 then 0 else page &&& (1 <<< (g.chipShift - g.pageShift))

def Geometry.eccSteps (g : Geometry) : Nat := g.writesize / 512

def Geometry.eccTotal (g : Geometry) : Nat := g.eccSteps * 9

/-- `single_erase_cmd_planes`: the pages sent with the two 0x60 commands. -/
def singleEraseCmdPlanes (g : Geometry) (globalPage : Nat) : Nat × Nat :=
  let page := planePage g.ppb globalPage
  (firstPlaneAddress g page,
    (BitVec.ofNat 32 (page + g.ppb) &&& ~~~(BitVec.ofNat 32 g.ppb - 1)).toNat)

/-! ### Writing -/

/-- The loop over the blocks of one physical page: what is left of the buffer, and the
parity bytes computed. -/
def writeSteps (rs : RsUnit) : Nat → Chip → List UInt8 → Chip × List UInt8 × List UInt8
  | 0, chip, p => (chip, p, [])
  | eccsteps + 1, chip, p =>
    let chip := chip.writeBuf (p.take 512)
    let (chip', p', ecc) := writeSteps rs eccsteps chip (p.drop 512)
    (chip', p', rs.encode (p.take 512) ++ ecc)

/-- `chip->oob_poi[eccpos[i]] = ecc_calc[i]` for all `i`. -/
def setEcc : List Nat → List UInt8 → List UInt8 → List UInt8
  | pos :: eccpos, b :: ecc, oob => setEcc eccpos ecc (oob.set pos b)
  | _, _, oob => oob

/-- The chip and `oob_poi` after the call. -/
def nandWritePageHweccPlanes (rs : RsUnit) (g : Geometry) (eccpos : List Nat) (chip : Chip)
    (globalPage : Nat) (buf oobPoi : List UInt8) : Chip × List UInt8 :=
  let eccsteps := g.eccSteps >>> 1
  let oobsize := g.oobsize >>> 1
  let ecctotal := g.eccTotal >>> 1
  let page := planePage g.ppb globalPage
  let chip := chip.cmd80 0 (firstPlaneAddress g page)
  let (chip, p, eccCalc) := writeSteps rs eccsteps chip buf
  let oobPoi := setEcc (eccpos.take ecctotal) eccCalc oobPoi
  let chip := chip.writeBuf (oobPoi.take oobsize)
  let chip := chip.cmd11
  let page := page + g.ppb
  let chip := chip.cmd81 0 page
  let (chip, _, eccCalc) := writeSteps rs eccsteps chip p
  let oobPoi := setEcc (eccpos.take ecctotal) eccCalc oobPoi
  -- both pages get the bytes at the start of oob_poi
  let chip := chip.writeBuf (oobPoi.take oobsize)
  (chip, oobPoi)

/-- `nand_write_page` in two-plane mode. -/
def nandWritePage (rs : RsUnit) (g : Geometry) (eccpos : List Nat) (chip : Chip)
    (page : Nat) (buf oobPoi : List UInt8) : Chip × List UInt8 :=
  let (chip, oobPoi) := nandWritePageHweccPlanes rs g eccpos chip page buf oobPoi
  (chip.pageprog g.ppb, oobPoi)

/-- `nand_write_oob_std_planes`, up to the status. -/
def nandWriteOobStdPlanes (g : Geometry) (chip : Chip) (globalPage : Nat)
    (oobPoi : List UInt8) : Chip :=
  let pagesize := g.writesize >>> 1
  let oobsize := g.oobsize >>> 1
  let page := planePage g.ppb globalPage
  let chip := chip.cmd80 pagesize (firstPlaneAddress g page)
  let chip := chip.writeBuf (oobPoi.take oobsize)
  let chip := chip.cmd11
  let page := page + g.ppb
  let chip := chip.cmd81 pagesize page
  let chip := chip.writeBuf ((oobPoi.drop oobsize).take oobsize)
  chip.pageprog g.ppb

/-! ### Reading -/

/-- `mtd->ecc_stats` -/
structure EccStats where
  failed : Nat
  corrected : Int
  deriving DecidableEq

/-- The loop over the blocks of one physical page: the bytes it stores at `p`. -/
def readSteps (rs : RsUnit) (flag : Bool) : Nat → Chip → List UInt8 → EccStats →
    List UInt8 × Chip × EccStats
  | 0, chip, _, stats => ([], chip, stats)
  | eccsteps + 1, chip, eccCode, stats =>
    let (p, chip) := chip.readBuf 512
    let (p, stats) :=
      if flag then
        let (p, stat) := jzsocNandRsCorrectData rs p (eccCode.take 9)
        if stat < 0 then (p, { stats with failed := stats.failed + 1 })
        else (p, { stats with corrected := stats.corrected + stat })
      else (p, stats)
    let (rest, chip, stats) := readSteps rs flag eccsteps chip (eccCode.drop 9) stats
    (p ++ rest, chip, stats)

/-- `read_buf` to `oob_poi + off`. -/
def overwrite (oob : List UInt8) (off : Nat) (bytes : List UInt8) : List UInt8 :=
  oob.take off ++ bytes ++ oob.drop (off + bytes.length)

/-- One physical page: its spare area to `oob_poi + off`, then its data. -/
def readPlane (rs : RsUnit) (g : Geometry) (eccpos : List Nat) (page off : Nat) (chip : Chip)
    (oobPoi : List UInt8) (stats : EccStats) : List UInt8 × List UInt8 × Chip × EccStats :=
  let eccsteps := g.eccSteps >>> 1
  let oobsize := g.oobsize >>> 1
  let ecctotal := g.eccTotal >>> 1
  let chip := chip.readoob g 0 page
  let (bytes, chip) := chip.readBuf oobsize
  let oobPoi := overwrite oobPoi off bytes
  let eccCode := (eccpos.take ecctotal).map fun pos => oobPoi.getD (off + pos) 0
  let flag := eccCode.any (· ≠ 0xff)
  let chip := chip.rndout 0
  let (p, chip, stats) := readSteps rs flag eccsteps chip eccCode stats
  (p, oobPoi, chip, stats)

/-- The data read, `oob_poi`, the chip and the statistics after the call. -/
def nandReadPageHweccRsPlanes (rs : RsUnit) (g : Geometry) (eccpos : List Nat) (chip : Chip)
    (globalPage : Nat) (oobPoi : List UInt8) (stats : EccStats) :
    List UInt8 × List UInt8 × Chip × EccStats :=
  let page := planePage g.ppb globalPage
  let (first, oobPoi, chip, stats) := readPlane rs g eccpos page 0 chip oobPoi stats
  let page := page + g.ppb
  let (second, oobPoi, chip, stats) :=
    readPlane rs g eccpos page (g.oobsize >>> 1) chip oobPoi stats
  (first ++ second, oobPoi, chip, stats)

def nandReadOobStdPlanes (g : Geometry) (chip : Chip) (globalPage : Nat) (sndcmd : Bool)
    (oobPoi : List UInt8) : List UInt8 × Chip :=
  let oobsize := g.oobsize >>> 1
  let page := planePage g.ppb globalPage
  let chip := if sndcmd then chip.readoob g 0 page else chip
  let (bytes, chip) := chip.readBuf oobsize
  let oobPoi := overwrite oobPoi 0 bytes
  let page := page + g.ppb
  let chip := if sndcmd then chip.readoob g 0 page else chip
  let (bytes, chip) := chip.readBuf oobsize
  (overwrite oobPoi oobsize bytes, chip)

end Dingoo.Nand
