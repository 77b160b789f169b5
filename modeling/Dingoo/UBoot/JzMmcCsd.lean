/-
The size of the card in the boot loader, `cpu/mips/jz_mmc.c`: the decoding of the card
specific data in `mmc_unpack_csd`, and `mmc_configure_card`.

Of the card specific data the fields are kept that `mmc_configure_card` reads.  The
expressions are computed in `int` and cut to the width of the field that is assigned.
-/
import Dingoo.UBoot.JzMmcInit

namespace Dingoo.JzMmc.Csd

/-- `struct mmc_csd` -/
structure MmcCsd where
  csdStructure : BitVec 8
  tranSpeed : BitVec 8
  readBlLen : BitVec 8
  cSize : BitVec 16
  cSizeMult : BitVec 8
deriving DecidableEq, Repr

/-- A byte of the response in an expression. -/
def promote (b : BitVec 8) : BitVec 32 := b.setWidth 32

/-- The case 0 of `mmc_unpack_csd`. -/
def unpackVersion1 (buf : Nat → BitVec 8) (csd : MmcCsd) : MmcCsd :=
  let readBlLen := buf 6 &&& 0x0f
  -- a longer block is counted as several of 512 bytes
  let num := if readBlLen ≥ 10 then readBlLen - 9 else 0
  let cSize := (((promote (buf 7) &&& 0x03) <<< 10) ||| (promote (buf 8) <<< 2) |||
    ((promote (buf 9) &&& 0xc0) >>> 6)).setWidth 16
  { csd with
    tranSpeed := buf 4
    readBlLen := if readBlLen ≥ 10 then 9 else readBlLen
    cSize := if num ≠ 0 then cSize <<< num else cSize
    cSizeMult := ((buf 10 &&& 0x03) <<< 1) ||| ((buf 11 &&& 0x80) >>> 7) }

/-- The case 1 of `mmc_unpack_csd`. -/
def unpackVersion2 (buf : Nat → BitVec 8) (csd : MmcCsd) : MmcCsd :=
  { csd with
    tranSpeed := buf 4
    readBlLen := 9
    cSize := (((promote (buf 8) &&& 0x3f) <<< 16) ||| (promote (buf 9) <<< 8) |||
      promote (buf 10)).setWidth 16 }

/-- `mmc_unpack_csd`: its result, the decoded data and `sd2_0`. -/
def mmcUnpackCsd (request : Reply) (csd : MmcCsd) (sd20 : Bool) : MmcResult × MmcCsd × Bool :=
  if request.result ≠ .noError then (request.result, csd, sd20)
  else
    let buf := fun i => request.response.getD i 0
    let csdStructure := (buf 1 &&& 0xc0) >>> 6
    let csd := { csd with csdStructure := csdStructure }
    let csd :=
      if csdStructure = 0 then unpackVersion1 buf csd
      else if csdStructure = 1 then unpackVersion2 buf csd
      else csd
    (if buf 0 ≠ 0x3f then .headerMismatch else .noError, csd, csdStructure ≠ 0)

/-- `ts_exp` -/
def tsExp : List (BitVec 32) := [100, 1000, 10000, 100000, 0, 0, 0, 0]

/-- `ts_mul` -/
def tsMul : List (BitVec 32) :=
  [0, 1000, 1200, 1300, 1500, 2000, 2500, 3000, 3500, 4000, 4500, 5000, 5500, 6000, 7000, 8000]

/-- `mmc_tran_speed` -/
def mmcTranSpeed (ts : BitVec 8) : BitVec 32 :=
  let rate := tsExp.getD (ts &&& 0x7).toNat 0 * tsMul.getD ((ts &&& 0x78) >>> 3).toNat 0
  if rate ≤ 0 then 1 else rate

/-- What `mmc_configure_card` sets. -/
structure CardInfo where
  blockNum : BitVec 32
  blockLen : BitVec 32
  /-- the rate of `jz_mmc_set_clock` -/
  rate : BitVec 32
deriving DecidableEq, Repr

/-- `mmc_configure_card` -/
def mmcConfigureCard (csd : MmcCsd) (sd20 sd : Bool) : CardInfo :=
  let rate := mmcTranSpeed csd.tranSpeed
  let rate := if rate < 400000 then 400000 else rate -- `MMC_CLOCK_SLOW`
  let rate := if !sd && rate > 20000000 then 20000000 else rate -- `MMC_CLOCK_FAST`
  let rate := if sd && rate > 24000000 then 24000000 else rate -- `SD_CLOCK_FAST`
  { blockNum :=
      if sd20 then (csd.cSize.setWidth 32 + 1) <<< 10
      else (csd.cSize.setWidth 32 + 1) * ((1 : BitVec 32) <<< (promote csd.cSizeMult + 2))
    blockLen := (1 : BitVec 32) <<< promote csd.readBlLen
    rate := rate }

end Dingoo.JzMmc.Csd
