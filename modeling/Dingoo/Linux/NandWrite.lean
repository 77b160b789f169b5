/-
Writing pages through the NAND core, `drivers/mtd/nand/nand_base.c`, on a chip driven
with one plane and hardware Reed-Solomon ECC.

`nand_do_write_ops` cuts a buffer into pages, pads a page that is not written in full,
and hands each one to `nand_write_page`, which streams the data and then `oob_poi` with
the parity bytes at the positions of the layout.  What is streamed between the two
program commands is logged, page by page.

Whether the chip is write protected and which pages fail to program are arguments.
The page cache and cached programming, which is switched off, are left out.
-/
import Dingoo.Lib.Buffers
import Dingoo.Linux.NandPlanes

namespace Dingoo.Nand

open Dingoo.Lib

inductive OobMode where
  | place
  | auto
  | raw
deriving DecidableEq, Repr

/-- `struct mtd_oob_ops` -/
structure OobOps where
  mode : OobMode
  len : Nat
  ooblen : Nat
  ooboffs : Nat
  datbuf : List UInt8
  oobbuf : Option (List UInt8)

/-- What is streamed to the chip for one page. -/
structure PageWrite where
  chipnr : Nat
  page : Nat
  data : List UInt8
  oob : List UInt8
deriving DecidableEq, Repr

/-- The device a write goes to: geometry, ECC unit, layout, and what the chips answer. -/
structure WriteDev where
  rs : RsUnit
  g : Geometry
  iplOob : Bool
  eccpos : List Nat
  /-- `(offset, length)` -/
  oobfree : List (Nat × Nat)
  subpagesize : Nat
  writeProtected : Bool
  fails : Nat → Nat → Bool
  /-- what `chip->oob_poi` holds before the call -/
  oobPoi : List UInt8

/-- The device with the Reed-Solomon layout `nand_oob_64` of the kernel. -/
def WriteDev.kernel (d : WriteDev) : WriteDev :=
  { d with iplOob := false, eccpos := nandOob64.eccpos, oobfree := [(2, 26)] }

/-- The device built with `CONFIG_MTD_NAND_JZ4740_IPL_OOB`. -/
def WriteDev.ipl (d : WriteDev) : WriteDev :=
  { d with iplOob := true, eccpos := nandOob64Ipl.eccpos, oobfree := [(42, 22)] }

def EINVAL : Int := 22

def EIO : Int := 5

/-- The loop of `nand_fill_oob` over the free areas of the layout. -/
def fillOobAuto : List (Nat × Nat) → Nat → Nat → List UInt8 → List UInt8 →
    List UInt8 × List UInt8
  | [], _, _, oob, oobPoi => (oob, oobPoi)
  | (offset, length) :: free, woffs, len, oob, oobPoi =>
    if length = 0 ∨ len = 0 then (oob, oobPoi)
    else if length ≤ woffs then fillOobAuto free (woffs - length) len oob oobPoi
    else
      let bytes := min len (length - woffs)
      fillOobAuto free 0 (len - bytes) (oob.drop bytes)
        (splice oobPoi (offset + woffs) (oob.take bytes))

/-- `nand_fill_oob`: what is left of the client's buffer, and `oob_poi`. -/
def nandFillOob (oobfree : List (Nat × Nat)) (ops : OobOps) (oob oobPoi : List UInt8) :
    List UInt8 × List UInt8 :=
  match ops.mode with
  | .place | .raw =>
    (oob.drop ops.ooblen, splice oobPoi ops.ooboffs (oob.take ops.ooblen))
  | .auto => fillOobAuto oobfree ops.ooboffs ops.ooblen oob oobPoi

/-- The loop of `nand_write_page_hwecc`: the bytes streamed and the parity bytes computed. -/
def hweccSteps (rs : RsUnit) : Nat → List UInt8 → List UInt8 × List UInt8
  | 0, _ => ([], [])
  | eccsteps + 1, p =>
    let (sent, ecc) := hweccSteps rs eccsteps (p.drop 512)
    (p.take 512 ++ sent, rs.encode (p.take 512) ++ ecc)

/-- `nand_write_page_hwecc`: the data streamed, and `oob_poi`, which is streamed after it. -/
def nandWritePageHwecc (d : WriteDev) (buf oobPoi : List UInt8) : List UInt8 × List UInt8 :=
  let (sent, eccCalc) := hweccSteps d.rs d.g.eccSteps buf
  (sent, setEcc (d.eccpos.take d.g.eccTotal) eccCalc oobPoi)

/-- `nand_write_page_raw` -/
def nandWritePageRaw (d : WriteDev) (buf oobPoi : List UInt8) : List UInt8 × List UInt8 :=
  (buf.take d.g.writesize, oobPoi)

/-- The number of bytes one turn of the loop of `nand_do_write_ops` writes. -/
def turnBytes (g : Geometry) (column writelen : Nat) : Nat :=
  if column ≠ 0 ∨ writelen < g.writesize - 1 then min (g.writesize - column) writelen
  else g.writesize

/-- The page buffer of one turn; a page that is not written in full is padded. -/
def turnBuf (g : Geometry) (column writelen : Nat) (buf : List UInt8) : List UInt8 :=
  if column ≠ 0 ∨ writelen < g.writesize - 1 then
    splice (List.replicate g.writesize 0xff) column (buf.take (turnBytes g column writelen))
  else buf

/-- The client's spare bytes go to `oob_poi`, if there are any. -/
def turnOob (d : WriteDev) (ops : OobOps) (oob : Option (List UInt8)) (oobPoi : List UInt8) :
    Option (List UInt8) × List UInt8 :=
  match oob with
  | none => (none, oobPoi)
  | some oob => ((nandFillOob d.oobfree ops oob oobPoi).1, (nandFillOob d.oobfree ops oob oobPoi).2)

/-- The data streamed for a page, and `oob_poi`, which is streamed after it. -/
def nandWritePageData (d : WriteDev) (ops : OobOps) (buf oobPoi : List UInt8) :
    List UInt8 × List UInt8 :=
  if ops.mode = .raw then nandWritePageRaw d buf oobPoi else nandWritePageHwecc d buf oobPoi

/-- The loop of `nand_do_write_ops`, for at most `fuel` pages: the value returned, the number
of bytes not written, and the pages streamed. -/
def writePages (d : WriteDev) (ops : OobOps) : Nat → Nat → Nat → Nat → Nat → List UInt8 →
    Option (List UInt8) → List UInt8 → Int × Nat × List PageWrite
  | 0, _, writelen, _, _, _, _, _ => (0, writelen, [])
  | fuel + 1, column, writelen, realpage, chipnr, buf, oob, oobPoi =>
    let page := realpage &&& d.g.pagemask
    let bytes := turnBytes d.g column writelen
    let (oob, oobPoi) := turnOob d ops oob oobPoi
    let (data, oobPoi) := nandWritePageData d ops (turnBuf d.g column writelen buf) oobPoi
    let write := ⟨chipnr, page, data, oobPoi⟩
    if d.fails chipnr page then (- EIO, writelen, [write])
    else if writelen - bytes = 0 then (0, 0, [write])
    else
      let realpage := realpage + 1
      -- a chip boundary is crossed
      let chipnr := if realpage &&& d.g.pagemask = 0 then chipnr + 1 else chipnr
      let (ret, left, writes) :=
        writePages d ops fuel 0 (writelen - bytes) realpage chipnr (buf.drop bytes) oob oobPoi
      (ret, left, write :: writes)

/-- `chip->oob_poi` without a client's buffer: all ones, and zeros where the IPL wants them. -/
def blankOob (d : WriteDev) : List UInt8 :=
  let oob := List.replicate d.g.oobsize 0xff
  if d.iplOob then ((oob.set 2 0).set 3 0).set 4 0 else oob

/-- `nand_do_write_ops`: the value returned, `retlen`, and the pages streamed. -/
def nandDoWriteOps (d : WriteDev) (toOffs : Nat) (ops : OobOps) : Int × Nat × List PageWrite :=
  if ops.len = 0 then (0, 0, [])
  else if toOffs &&& (d.subpagesize - 1) ≠ 0 ∨ ops.len &&& (d.subpagesize - 1) ≠ 0 then
    (-EINVAL, 0, [])
  else
    let column := toOffs &&& (d.g.writesize - 1)
    let subpage := column ≠ 0 ∨ ops.len &&& (d.g.writesize - 1) ≠ 0
    if subpage ∧ ops.oobbuf.isSome then (-EINVAL, 0, [])
    else if d.writeProtected then (- EIO, 0, [])
    else
      let oobPoi := if ops.oobbuf.isNone then blankOob d else d.oobPoi
      let (ret, left, writes) := writePages d ops ops.len column ops.len (toOffs >>> d.g.pageShift)
        (toOffs >>> d.g.chipShift) ops.datbuf ops.oobbuf oobPoi
      (ret, ops.len - left, writes)

end Dingoo.Nand
