/-
The copies of the Reed-Solomon symbol correction in the boot loader: `jzsoc_rs_correct`
of `cpu/mips/jz4740_nand.c` and `rs_correct` of the first stage,
`nand_spl/board/a320/nand_boot_jz4740.c`.

Each is translated from its own file.  The block is the 512 bytes the error unit was
fed with, the index counts 9-bit symbols from 1.
-/
import Dingoo.Linux.NandPlanes

namespace Dingoo.UBoot

open Dingoo.Nand

def jzsocRsCorrect (dat : List UInt8) (idx : Int) (mask : Nat) : List UInt8 :=
  let idx := idx - 1
  let i := idx + (idx >>> (3 : Nat))
  if i ≥ 512 then dat
  else
    let mask := mask <<< (idx % 8).toNat
    let dat := xorAt dat i (mask &&& 0xff)
    if i < 511 then xorAt dat (i + 1) ((mask >>> 8) &&& 0xff) else dat

end Dingoo.UBoot

namespace Dingoo.NandSpl

open Dingoo.Nand

def rsCorrect (dat : List UInt8) (idx : Int) (mask : Nat) : List UInt8 :=
  let idx := idx - 1
  let i := idx + (idx >>> (3 : Nat))
  if i ≥ 512 then dat
  else
    let mask := mask <<< (idx % 8).toNat
    let dat := xorAt dat i (mask &&& 0xff)
    if i < 511 then xorAt dat (i + 1) ((mask >>> 8) &&& 0xff) else dat

end Dingoo.NandSpl
