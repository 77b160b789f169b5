/-
Chip detection and the bad block check of the NAND core, `drivers/mtd/nand/nand_base.c`
with the chip table of `nand_ids.c`.

`nand_get_flash_type` reads the identification bytes of the chip and derives the
geometry every other routine works with.  A chip with more than one plane is driven
with two pages as one page and two blocks as one block: `writesize`, `oobsize` and
`erasesize` are doubled, and with them `page_shift` and `pagemask`.

Page numbers and offsets stay far below the range of `int`, so they are naturals.
The options of the chip other than its bus width, the names in the table and the small
page command function, which no chip with an extended id uses, are left out.
-/
import Mathlib.Algebra.Group.Nat.Defs
import Mathlib.Data.List.Basic

namespace Dingoo.Nand

/-- `ffs` and `ffs_ll`: the lowest set bit of a word, counted from 1; 0 if there is none. -/
def ffs (word : Nat) : Nat :=
  match (List.range 64).find? (fun i => word.testBit i) with
  | some i => i + 1
  | none => 0

/-- The build options the core depends on. -/
structure Config where
  multiPlane : Bool -- CONFIG_MTD_NAND_MULTI_PLANE
  iplOob : Bool     -- CONFIG_MTD_NAND_JZ4740_IPL_OOB
  flagPage : Nat    -- CONFIG_MTD_BADBLOCK_FLAG_PAGE

/-- A row of `nand_flash_ids`; the chip size is in megabytes. -/
structure FlashDev where
  id : Nat
  pagesize : Nat
  chipsize : Nat
  erasesize : Nat
  buswidth16 : Bool

/-- A row without page size: the rest is in the extended id. -/
def extendedDev (id chipsize : Nat) (buswidth16 : Bool) : FlashDev :=
  ⟨id, 0, chipsize, 0, buswidth16⟩

def nandFlashIds : List FlashDev :=
  [⟨0x33, 512, 16, 0x4000, false⟩, ⟨0x73, 512, 16, 0x4000, false⟩,
   ⟨0x43, 512, 16, 0x4000, true⟩, ⟨0x53, 512, 16, 0x4000, true⟩,
   ⟨0x35, 512, 32, 0x4000, false⟩, ⟨0x75, 512, 32, 0x4000, false⟩,
   ⟨0x45, 512, 32, 0x4000, true⟩, ⟨0x55, 512, 32, 0x4000, true⟩,
   ⟨0x36, 512, 64, 0x4000, false⟩, ⟨0x76, 512, 64, 0x4000, false⟩,
   ⟨0x46, 512, 64, 0x4000, true⟩, ⟨0x56, 512, 64, 0x4000, true⟩,
   ⟨0x78, 512, 128, 0x4000, false⟩, ⟨0x39, 512, 128, 0x4000, false⟩,
   ⟨0x79, 512, 128, 0x4000, false⟩, ⟨0x72, 512, 128, 0x4000, true⟩,
   ⟨0x49, 512, 128, 0x4000, true⟩, ⟨0x74, 512, 128, 0x4000, true⟩,
   ⟨0x59, 512, 128, 0x4000, true⟩, ⟨0x71, 512, 256, 0x4000, false⟩,
   extendedDev 0xA2 64 false, extendedDev 0xF2 64 false,
   extendedDev 0xB2 64 true, extendedDev 0xC2 64 true,
   extendedDev 0xA1 128 false, extendedDev 0xF1 128 false,
   extendedDev 0xB1 128 true, extendedDev 0xC1 128 true,
   extendedDev 0xAA 256 false, extendedDev 0xDA 256 false,
   extendedDev 0xBA 256 true, extendedDev 0xCA 256 true,
   extendedDev 0xAC 512 false, extendedDev 0xDC 512 false,
   extendedDev 0xBC 512 true, extendedDev 0xCC 512 true,
   extendedDev 0xA3 1024 false, extendedDev 0xD3 1024 false,
   extendedDev 0xB3 1024 true, extendedDev 0xC3 1024 true,
   extendedDev 0xA5 2048 false, extendedDev 0xD5 2048 false,
   extendedDev 0xB5 2048 true, extendedDev 0xC5 2048 true,
   extendedDev 0xD7 4096 false,
   ⟨0x01, 2048, 128, 0x4000, false⟩]

/-- The sizes found so far: page, spare area and block, and the number of planes. -/
structure Sizes where
  writesize : Nat
  oobsize : Nat
  erasesize : Nat
  realplanenum : Nat
  planenum : Nat
  busw : Bool

/-- The sizes from the fourth and fifth id bytes. -/
def extendedSizes (cfg : Config) (ext4 ext5 : Nat) : Sizes :=
  let writesize := 1024 <<< (ext4 &&& 0x3)
  let ext4 := ext4 >>> 2
  let oobsize := (8 <<< (ext4 &&& 0x1)) * (writesize >>> 9)
  let ext4 := ext4 >>> 2
  let erasesize := (64 * 1024) <<< (ext4 &&& 0x3)
  let ext4 := ext4 >>> 2
  let busw := ext4 &&& 0x1 ≠ 0
  let realplanenum := if cfg.multiPlane then 1 <<< ((ext5 &&& 0x0c) >>> 2) else 1
  if realplanenum > 1 then
    ⟨writesize * 2, oobsize * 2, erasesize * 2, realplanenum, 2, busw⟩
  else ⟨writesize, oobsize, erasesize, realplanenum, 1, busw⟩

/-- The geometry in `struct mtd_info` and `struct nand_chip`. -/
structure Geometry where
  chipsize : Nat
  writesize : Nat
  oobsize : Nat
  erasesize : Nat
  realplanenum : Nat
  planenum : Nat
  pageShift : Nat
  pagemask : Nat
  chipShift : Nat
  badblockpos : Nat
  buswidth16 : Bool
  deriving DecidableEq, Repr

/-- The sizes of a chip of the table, or of its extended id.  The planes of a chip without
one stay 0, as the structure was cleared. -/
def typeSizes (cfg : Config) (type : FlashDev) (ext4 ext5 : Nat) : Sizes :=
  if type.pagesize = 0 then extendedSizes cfg ext4 ext5
  else ⟨type.pagesize, type.pagesize / 32, type.erasesize, 0, 0, type.buswidth16⟩

/-- Under `CONFIG_MTD_NAND_JZ4740_IPL_OOB` the page size is forced to 2K. -/
def iplSizes (cfg : Config) (sizes : Sizes) : Sizes :=
  if cfg.iplOob = true ∧ sizes.writesize ≠ 2048 then
    { sizes with writesize := 2048, oobsize := 2048 / 32, erasesize := 2048 * 128 }
  else sizes

/-- The shifts, the mask and the marker position that follow from the sizes. -/
def sizesGeometry (type : FlashDev) (sizes : Sizes) : Geometry :=
  let chipsize := type.chipsize <<< 20
  let pageShift := ffs sizes.writesize - 1
  { chipsize
    writesize := sizes.writesize
    oobsize := sizes.oobsize
    erasesize := sizes.erasesize
    realplanenum := sizes.realplanenum
    planenum := sizes.planenum
    pageShift
    pagemask := (chipsize >>> pageShift) - 1
    chipShift := ffs chipsize - 1
    badblockpos := if sizes.writesize > 512 then 0 else 5
    buswidth16 := type.buswidth16 }

/-- `nand_get_flash_type` for the id bytes of a chip on a bus whose width the driver has set;
`none` is an error pointer. -/
def nandGetFlashType (cfg : Config) (busOption16 : Bool) (devId ext4 ext5 : Nat) :
    Option Geometry :=
  match nandFlashIds.find? (fun type => devId == type.id) with
  | none => none
  | some type =>
    let sizes := iplSizes cfg (typeSizes cfg type ext4 ext5)
    if sizes.busw ≠ busOption16 then none else some (sizesGeometry type sizes)

/-- `mtd->erasesize / mtd->writesize`, the pages of a block. -/
def Geometry.ppb (g : Geometry) : Nat := g.erasesize / g.writesize

/-- Where `nand_command_lp` points the chip for `NAND_CMD_READOOB`: the row and column it
puts into the address cycles. -/
def readoobAddress (g : Geometry) (column page : Nat) : Nat × Nat :=
  let column := column + if g.planenum > 1 then g.writesize / g.planenum else g.writesize
  let column := if g.buswidth16 then column >>> 1 else column
  -- one more address cycle for devices > 128MiB
  let row := if g.chipsize > 128 <<< 20 then page % 2 ^ 24 else page % 2 ^ 16
  (row, column % 2 ^ 16)

/-- `read_byte` at the address; `mem` is the chip by row and byte column. -/
def readByte (mem : Nat → Nat → UInt8) (address : Nat × Nat) : Nat :=
  (mem address.1 address.2).toNat

/-- `read_word` on a 16 bit bus, where columns count words. -/
def readWord (mem : Nat → Nat → UInt8) (address : Nat × Nat) : Nat :=
  (mem address.1 (2 * address.2)).toNat + (mem address.1 (2 * address.2 + 1)).toNat * 256

/-- `nand_block_bad`: 1 for a bad block at offset `ofs`, else 0. -/
def nandBlockBad (cfg : Config) (g : Geometry) (mem : Nat → Nat → UInt8) (ofs : Nat) : Nat :=
  let page := if g.planenum > 1 then (ofs >>> g.pageShift) * g.planenum + cfg.flagPage
    else (ofs >>> g.pageShift) + cfg.flagPage
  let page1 := (page + g.ppb) &&& g.pagemask
  let page := page &&& g.pagemask
  if g.buswidth16 then
    let bad := readWord mem (readoobAddress g (g.badblockpos &&& 0xFE) page)
    let bad := if g.badblockpos &&& 0x1 ≠ 0 then bad >>> 8 else bad
    if bad &&& 0xFF ≠ 0xff then 1 else 0
  else
    let res := if readByte mem (readoobAddress g g.badblockpos page) ≠ 0xff then 1 else 0
    if g.planenum > 1 then
      if readByte mem (readoobAddress g g.badblockpos page1) ≠ 0xff then 1 else res
    else res

end Dingoo.Nand
