/-
Frequency scaling of the JZ4740 (`arch/mips/jz4740/cpufreq.c`), as far as the SDRAM
controller is concerned.

`boot_config` remembers the SDRAM timings and the memory clock found at the first
transition.  Each transition recomputes the timing fields of DMCR and the refresh
constant from there: going faster DMCR is written before the clock changes and the
refresh constant after, going slower the other way round.

Registers are 32 bit words.  The computations are on `unsigned int`, so the products
that can exceed 32 bits are cut by `u32`.
-/
import Mathlib.Data.BitVec

namespace Dingoo.Cpufreq

/-- An `unsigned int` result. -/
def u32 (x : Nat) : Nat := x % 4294967296

/-- `x--` on an `unsigned int`. -/
def dec32 (x : Nat) : Nat := if x = 0 then 4294967295 else x - 1

/-- The two limits of a register field, one after the other. -/
def clamp (lo hi c : Nat) : Nat :=
  let c := if c < lo then lo else c
  if c > hi then hi else c

/-- The five SDRAM timings of DMCR. -/
inductive Timing
  | tras
  | rcd
  | tpc
  | trwl
  | trc
  deriving DecidableEq, Repr

namespace Timing

/-- `EMC_DMCR_*_BIT` -/
def bit : Timing → Nat
  | tras => 13
  | rcd => 11
  | tpc => 8
  | trwl => 5
  | trc => 2

/-- `EMC_DMCR_*_MASK`, shifted down. -/
def mask : Timing → BitVec 32
  | tras => 0x7
  | rcd => 0x3
  | tpc => 0x7
  | trwl => 0x3
  | trc => 0x7

/-- Cycles for a field value. -/
def decode : Timing → Nat → Nat
  | tras, v => v + 4
  | rcd, v => v + 1
  | tpc, v => v + 1
  | trwl, v => v + 1
  | trc, v => v * 2 + 1

/-- The field value written for a number of cycles within range. -/
def encode : Timing → Nat → Nat
  | tras, c => c - 4
  | rcd, c => c - 1
  | tpc, c => c - 1
  | trwl, c => c - 1
  | trc, c => c / 2

/-- What is added when the scaled value turns out too short. -/
def bump : Timing → Nat
  | trc => 2
  | _ => 1

/-- The least and the largest number of cycles the field can hold. -/
def lo : Timing → Nat
  | tras => 4
  | _ => 1

def hi : Timing → Nat
  | tras => 11
  | rcd => 4
  | tpc => 8
  | trwl => 4
  | trc => 15

end Timing

/-- The cycles a DMCR value stands for. -/
def cycles (dmcr : BitVec 32) (t : Timing) : Nat :=
  t.decode ((dmcr >>> t.bit) &&& t.mask).toNat

/-- The SDRAM part of `boot_config`; `mclk` is in kHz. -/
structure BootConfig where
  mclk : Nat
  cycles : Timing → Nat
  rtcor : Nat

/-- The registers the driver writes, and the memory clock in Hz now in force. -/
structure Hw where
  dmcr : BitVec 32
  rtcor : Nat
  rtcnt : Nat
  mclk : Nat
  deriving DecidableEq, Repr

/-- `jz_init_boot_config` -/
def jzInitBootConfig (hw : Hw) : BootConfig where
  mclk := hw.mclk / 1000
  cycles := cycles hw.dmcr
  rtcor := hw.rtcor

/-- `jz_update_dram_rtcor` -/
def jzUpdateDramRtcor (boot : BootConfig) (newMclk : Nat) (hw : Hw) : Hw :=
  let newMclk := newMclk / 1000
  let rtcor := u32 (boot.rtcor * newMclk) / boot.mclk
  let rtcor := clamp 1 255 (dec32 rtcor)
  { hw with rtcor := rtcor, rtcnt := rtcor }

/-- One timing at a new clock in kHz: scaled down, then lengthened if that made it
shorter than at boot. -/
def scaleTiming (boot : BootConfig) (newMclk : Nat) (t : Timing) : Nat :=
  let scaled := u32 (boot.cycles t * newMclk) / boot.mclk
  let validTime := u32 (boot.cycles t * 1000000) / boot.mclk
  let newTime := u32 (scaled * 1000000) / newMclk
  if newTime < validTime then scaled + t.bump else scaled

/-- The field value for it, limited to what the field can hold. -/
def timingField (boot : BootConfig) (newMclk : Nat) (t : Timing) : Nat :=
  t.encode (clamp t.lo t.hi (scaleTiming boot newMclk t))

/-- The bits of DMCR that hold timings. -/
def timingMask : BitVec 32 :=
  (0x7#32 <<< 13) ||| (0x3#32 <<< 11) ||| (0x7#32 <<< 8) ||| (0x3#32 <<< 5) ||| (0x7#32 <<< 2)

/-- `jz_update_dram_dmcr` -/
def jzUpdateDramDmcr (boot : BootConfig) (newMclk : Nat) (hw : Hw) : Hw :=
  let newMclk := newMclk / 1000
  let field (t : Timing) : BitVec 32 := BitVec.ofNat 32 (timingField boot newMclk t) <<< t.bit
  let dmcr := hw.dmcr &&& ~~~timingMask
  let dmcr := dmcr ||| (field .tras ||| field .rcd ||| field .tpc ||| field .trwl ||| field .trc)
  { hw with dmcr := dmcr }

/-- `jz_update_dram_prev` -/
def jzUpdateDramPrev (boot : BootConfig) (curMclk newMclk : Nat) (hw : Hw) : Hw :=
  if newMclk > curMclk then jzUpdateDramDmcr boot newMclk hw
  else jzUpdateDramRtcor boot newMclk hw

/-- `jz_update_dram_post` -/
def jzUpdateDramPost (boot : BootConfig) (curMclk newMclk : Nat) (hw : Hw) : Hw :=
  if newMclk > curMclk then jzUpdateDramRtcor boot newMclk hw
  else jzUpdateDramDmcr boot newMclk hw

/-- The writes of `jz_scale_divisors` towards a new memory clock: the state before the
CPCCR write, right after it, and at the end. -/
def scaleTo (boot : BootConfig) (newMclk : Nat) (hw : Hw) : Hw × Hw × Hw :=
  let h1 := jzUpdateDramPrev boot hw.mclk newMclk hw
  let h2 := { h1 with mclk := newMclk }
  let h3 := jzUpdateDramPost boot hw.mclk newMclk h2
  (h1, h2, h3)

/-- Every instant of a sequence of transitions to the given memory clocks. -/
def instants (boot : BootConfig) : Hw → List Nat → List Hw
  | hw, [] => [hw]
  | hw, newMclk :: rest =>
    let (h1, h2, h3) := scaleTo boot newMclk hw
    hw :: h1 :: h2 :: instants boot h3 rest

/-! ### The clock registers -/

/-- The fields of `struct dpm_regs` that `jz_scale_divisors` reads. -/
structure DpmRegs where
  cpccr : BitVec 32
  cpccrMask : BitVec 32

/-- The divisor table; an index above 9 reads outside it. -/
def divTable : List Nat := [1, 2, 3, 4, 6, 8, 12, 16, 24, 32]

/-- `__cpm_get_mclk` for a CPCCR value, from the PLL output in Hz. -/
def cpmGetMclk (pllout : Nat) (cpccr : BitVec 32) : Option Nat :=
  (divTable[((cpccr >>> 12) &&& 0xf).toNat]?).map (pllout / ·)

/-- The CPCCR value `jz_scale_divisors` writes. -/
def newCpccr (cpccr : BitVec 32) (regs : DpmRegs) : BitVec 32 :=
  ((cpccr &&& ~~~regs.cpccrMask) ||| regs.cpccr) ||| (1#32 <<< 22)

/-- Every instant of a sequence of `jz_scale_divisors` calls, the PLL left alone. -/
def jzScaleDivisors (boot : BootConfig) (pllout : Nat) :
    BitVec 32 → Hw → List DpmRegs → Option (List Hw)
  | _, hw, [] => some [hw]
  | cpccr, hw, regs :: rest => do
      let cpccr := newCpccr cpccr regs
      let newMclk ← cpmGetMclk pllout cpccr
      let (h1, h2, h3) := scaleTo boot newMclk hw
      let later ← jzScaleDivisors boot pllout cpccr h3 rest
      return hw :: h1 :: h2 :: later

end Dingoo.Cpufreq
