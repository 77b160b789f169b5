/-
The frequency table of `linux-2.6.24.3/arch/mips/jz4740/cpufreq.c` and the divisors of a
table index.

CPCCR holds one 4-bit index per clock into the hardware's divisor table.  The driver's
table is made at init from the CPU clock the boot loader left, in kHz; `index_to_divisor`
gets a divisor of the PLL output back from a table entry, derives the divisors of the
other three clocks from it and looks the indices up in `n2FR`.

A read outside `n2FR` or outside the divisor table is no value here (`none`).
-/
import Dingoo.Linux.Cpufreq

namespace Dingoo.Cpufreq

/-- The clocks with a divisor field in CPCCR. -/
inductive Clock where
  | cclk
  | hclk
  | pclk
  | mclk
  deriving DecidableEq, Repr

/-- `CPM_CPCCR_CDIV_BIT`, `CPM_CPCCR_HDIV_BIT`, `CPM_CPCCR_PDIV_BIT`, `CPM_CPCCR_MDIV_BIT`. -/
def Clock.bit : Clock → Nat
  | .cclk => 0
  | .hclk => 4
  | .pclk => 8
  | .mclk => 12

/-- The divisor a CPCCR value selects for a clock. -/
def fieldDiv (k : Clock) (cpccr : BitVec 32) : Option Nat :=
  divTable[((cpccr >>> k.bit) &&& 0xf).toNat]?

/-- `__cpm_get_cclk`, `__cpm_get_hclk`, `__cpm_get_pclk` and `__cpm_get_mclk`. -/
def cpmGetClk (k : Clock) (pllout : Nat) (cpccr : BitVec 32) : Option Nat :=
  (fieldDiv k cpccr).map (pllout / ·)

/-- `CPUFREQ_TABLE_END`. -/
def cpufreqTableEnd : Nat := 0xfffffffe

/-- The divisors of `MAX_FREQ` in the table. -/
def tableSteps : List Nat := [8, 6, 4, 3, 2, 1]

/-- `jz4740_cpufreq_driver_init`: the frequencies of the table it fills in. -/
def jz4740CpufreqDriverInit (cpu pllout : Nat) (cpccr : BitVec 32) : Option (List Nat) :=
  if cpu ≠ 0 then none
  else do
    let cclk ← cpmGetClk .cclk pllout cpccr
    let maxFreq := cclk / 1000
    return tableSteps.map (maxFreq / ·) ++ [cpufreqTableEnd]

/-- The frequency dividing table `n2FR`. -/
def n2FR : List (BitVec 32) :=
  [0, 0, 1, 2, 3, 0, 4, 0, 5, 0, 0, 0, 6, 0, 0, 0,
   7, 0, 0, 0, 0, 0, 0, 0, 8, 0, 0, 0, 0, 0, 0, 0,
   9]

/-- The `do ... while (div_of_cclk == 0)` loop; a frequency of 0 never leaves it. -/
def divOfCclk (pllout newFreq : Nat) : Nat → Option Nat
  | 0 => none
  | fuel + 1 =>
    let div := pllout / u32 (1000 * newFreq)
    if div = 0 then divOfCclk pllout newFreq fuel else some div

/-- The divisors of I:S:P:M for a divisor of the CPU clock. -/
def divisors (cdiv : Nat) : Clock → Nat
  | .cclk => cdiv
  | _ => (if cdiv = 1 ∨ cdiv = 2 ∨ cdiv = 4 then 3 else 2) * cdiv

/-- The CPCCR fields of the four divisors. -/
def packDivisors (cdiv : Nat) : Option (BitVec 32) := do
  let c ← n2FR[divisors cdiv .cclk]?
  let h ← n2FR[divisors cdiv .hclk]?
  let p ← n2FR[divisors cdiv .pclk]?
  let m ← n2FR[divisors cdiv .mclk]?
  return (c <<< Clock.cclk.bit) ||| (h <<< Clock.hclk.bit) ||| (p <<< Clock.pclk.bit)
    ||| (m <<< Clock.mclk.bit)

/-- `CPM_CPCCR_CDIV_MASK | CPM_CPCCR_HDIV_MASK | CPM_CPCCR_PDIV_MASK | CPM_CPCCR_MDIV_MASK`. -/
def divMask : BitVec 32 := 0xf ||| 0xf0 ||| 0xf00 ||| 0xf000

/-- `index_to_divisor`: the divisor it returns and the registers it fills in. -/
def indexToDivisor (table : List Nat) (pllout index fuel : Nat) : Option (Nat × DpmRegs) := do
  let newFreq ← table[index]?
  let cdiv ← divOfCclk pllout newFreq fuel
  let cpccr ← packDivisors cdiv
  return (cdiv, { cpccr := cpccr, cpccrMask := divMask })

end Dingoo.Cpufreq
