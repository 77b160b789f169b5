/-
Two drivers acquiring their DMA channels: `attach_jz_i2s` of `sound/oss/jz_i2s.c` and
`jz_mmc_probe` of `drivers/mmc/host/jz_mmc.c`.

Only the DMA channel table is state.  What the other steps return is an argument, and so
are the values the channel variables hold on entry: the controller record of the sound
driver comes from `kmalloc` with the two fields unset, the variables of the MMC driver are
static.  `jz_free_dma` takes an `unsigned int`, so a negative variable is converted.
-/
import Dingoo.Linux.Dma

namespace Dingoo.DriverInit

open Dma

/-- An `int` passed as an `unsigned int`. -/
def asUnsigned (x : Int) : Nat := (x % 4294967296).toNat

/-! ### The sound driver -/

/-- Where `attach_jz_i2s` ends: the label it jumps to, or its `return`. -/
inductive AttachExit where
  | audioFailed
  | mixerFailed
  | procFailed
  | tmp1Failed
  | tmp2Failed
  | dma2Failed
  | dma1Failed
  | done
  deriving DecidableEq, Repr

/-- The controller on entry, and what each step returns. -/
structure AttachEnv where
  /-- address of the controller -/
  controller : Nat
  /-- address of the strings `"audio adc"` and `"audio dac"` -/
  adcName : Nat
  dacName : Nat
  /-- `controller->dma1` -/
  dma1 : Int
  registerSoundDsp : Int
  codecInit : Int
  initProc : Int
  tmp1 : Bool
  tmp2 : Bool
  /-- `request_irq` for the two channels -/
  errnoAdc : Nat
  errnoDac : Nat

/-- `DMA_ID_I2S_TX` -/
def dmaIdI2sTx : Int := 4

/-- `DMA_ID_I2S_RX` -/
def dmaIdI2sRx : Int := 5

/-- `attach_jz_i2s` -/
def attachJzI2s (env : AttachEnv) : M AttachExit := do
  if env.registerSoundDsp < 0 then return .audioFailed
  if env.codecInit ≤ 0 then return .mixerFailed
  if env.initProc < 0 then return .procFailed
  if !env.tmp1 then return .tmp1Failed
  if !env.tmp2 then return .tmp2Failed
  let dma2 ← jzRequestDma dmaIdI2sRx env.adcName true env.controller env.errnoAdc
  if dma2 < 0 then
    -- the label frees the channel that has not been requested yet
    jzFreeDma (asUnsigned env.dma1)
    return .dma2Failed
  let dma1 ← jzRequestDma dmaIdI2sTx env.dacName true env.controller env.errnoDac
  if dma1 < 0 then return .dma1Failed
  return .done

/-! ### The MMC driver -/

/-- Where `jz_mmc_probe` ends: the label it jumps to, or one of its `return`s. -/
inductive ProbeExit where
  | noResource
  | busy
  | out
  | mscIrq
  | err1
  | err2
  | err3
  | done
  deriving DecidableEq, Repr

/-- The static variables on entry, and what each step returns. -/
structure ProbeEnv where
  /-- address of the host -/
  host : Nat
  /-- address of the strings `"MMC Rx"` and `"MMC Tx"` -/
  rxName : Nat
  txName : Nat
  rxdmachan : Int
  txdmachan : Int
  resource : Bool
  irq : Int
  memRegion : Bool
  mmc : Bool
  sgCpu : Bool
  /-- `request_irq` for the controller and for card detection -/
  errnoMsc : Nat
  errnoDetect : Nat
  /-- `request_irq` for the two channels -/
  errnoRx : Nat
  errnoTx : Nat
  errno_int : errnoRx < 2 ^ 31 ∧ errnoTx < 2 ^ 31

/-- `DMA_ID_MSC_TX` -/
def dmaIdMscTx : Int := 6

/-- `DMA_ID_MSC_RX` -/
def dmaIdMscRx : Int := 7

/-- `jz_mmc_probe` -/
def jzMmcProbe (env : ProbeEnv) : M ProbeExit := do
  if !env.resource || env.irq < 0 then return .noResource
  if !env.memRegion then return .busy
  if !env.mmc then return .out
  if !env.sgCpu then return .out
  if env.errnoMsc ≠ 0 then return .mscIrq
  if env.errnoDetect ≠ 0 then
    -- err1 falls through err2 and err3
    jzFreeDma (asUnsigned env.rxdmachan)
    jzFreeDma (asUnsigned env.txdmachan)
    return .err1
  let rxdmachan ← jzRequestDma dmaIdMscRx env.rxName true env.host env.errnoRx
  if rxdmachan < 0 then
    jzFreeDma (asUnsigned rxdmachan)
    jzFreeDma (asUnsigned env.txdmachan)
    return .err2
  let txdmachan ← jzRequestDma dmaIdMscTx env.txName true env.host env.errnoTx
  if txdmachan < 0 then
    jzFreeDma (asUnsigned txdmachan)
    return .err3
  return .done

end Dingoo.DriverInit
