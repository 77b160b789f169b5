/-
Sleep, `arch/mips/jz4740/pm.c`, with the macros of `mach-jz4740/ops.h` that it uses.

`jz_pm_do_sleep` saves the registers of the board, sets them for sleep, waits for an interrupt
and writes them back.  The GPIO registers are written through set and clear registers.
The builds with and without `CONFIG_JZ4740_PAVO` differ in a few pins.

The hardware is memory here: a register keeps its value until it is written.  Only the
second counter of the RTC goes on by itself, while the processor waits.
-/
import Mathlib.Data.BitVec

namespace Dingoo.Pm

/-- The registers of a GPIO group: function, select, direction, pull, mask, data, trigger. -/
inductive PxReg
  | fn | sel | dir | pe | im | dat | trg
deriving DecidableEq, Repr

structure Board where
  gpio : Nat → PxReg → BitVec 32
  nfcsr : BitVec 32
  scr : BitVec 32
  lcr : BitVec 32
  imr : BitVec 32
  sadcEna : BitVec 8
  rsr : BitVec 32
  /-- `xtime.tv_sec` -/
  xtimeSec : BitVec 32

namespace Board

/-- A write to the set register of `r` in group `p`. -/
def pxSet (b : Board) (p : Nat) (r : PxReg) (v : BitVec 32) : Board :=
  { b with gpio := fun q s => if q = p ∧ s = r then b.gpio q s ||| v else b.gpio q s }

/-- A write to the clear register of `r` in group `p`. -/
def pxClear (b : Board) (p : Nat) (r : PxReg) (v : BitVec 32) : Board :=
  { b with gpio := fun q s => if q = p ∧ s = r then b.gpio q s &&& ~~~v else b.gpio q s }

/-- `__gpio_as_input` -/
def gpioAsInput (b : Board) (n : Nat) : Board :=
  ((b.pxClear (n / 32) .fn (1 <<< (n % 32))).pxClear (n / 32) .sel (1 <<< (n % 32))).pxClear
    (n / 32) .dir (1 <<< (n % 32))

/-- `__gpio_enable_pull` -/
def gpioEnablePull (b : Board) (n : Nat) : Board := b.pxClear (n / 32) .pe (1 <<< (n % 32))

/-- `__gpio_set_pin` -/
def gpioSetPin (b : Board) (n : Nat) : Board := b.pxSet (n / 32) .dat (1 <<< (n % 32))

/-- `__gpio_unmask_irq` -/
def gpioUnmaskIrq (b : Board) (n : Nat) : Board := b.pxClear (n / 32) .im (1 <<< (n % 32))

/-- `__gpio_as_irq_rise_edge`.  The flag clear register has the address of the data set
register. -/
def gpioAsIrqRiseEdge (b : Board) (n : Nat) : Board :=
  let p := n / 32
  let v : BitVec 32 := 1 <<< (n % 32)
  let b := b.pxSet p .im v
  let b := b.pxSet p .trg v
  let b := b.pxClear p .fn v
  let b := b.pxSet p .sel v
  let b := b.pxSet p .dir v
  let b := b.pxSet p .dat v
  b.pxClear p .im v

/-- `__gpio_as_sleep` -/
def gpioAsSleep (b : Board) : Board :=
  let b := b.pxClear 1 .fn (~~~0x9ff9ffff)
  let b := b.pxClear 1 .sel (~~~0x9ff9ffff)
  let b := b.pxClear 1 .dir (~~~0x9ff9ffff)
  let b := b.pxSet 1 .pe 0xffffffff
  let b := b.pxClear 2 .fn (~~~0x37000000)
  let b := b.pxClear 2 .sel (~~~0x37000000)
  let b := b.pxClear 2 .dir (~~~0x37000000)
  let b := b.pxSet 2 .pe 0xffffffff
  let b := b.pxClear 3 .fn 0xffffffff
  let b := b.pxClear 3 .sel 0xffffffff
  let b := b.pxClear 3 .dir 0xffffffff
  b.pxSet 3 .pe 0xffffffff

/-- `REG_INTC_IMSR = v` -/
def imsr (b : Board) (v : BitVec 32) : Board := { b with imr := b.imr ||| v }

/-- `REG_INTC_IMCR = v` -/
def imcr (b : Board) (v : BitVec 32) : Board := { b with imr := b.imr &&& ~~~v }

/-- `__intc_unmask_irq` -/
def intcUnmaskIrq (b : Board) (n : Nat) : Board := b.imcr (1 <<< n)

end Board

def GPIO_WAKEUP : Nat := 125
def IRQ_RTC : Nat := 15
def IRQ_GPIO3 : Nat := 25
def CPM_LCR_LPM_MASK : BitVec 32 := 0x3
def CPM_LCR_LPM_IDLE : BitVec 32 := 0x0
def CPM_LCR_LPM_SLEEP : BitVec 32 := 0x1

/-- The registers in the order in which they are saved and restored. -/
def savedRegs : List PxReg := [.fn, .sel, .dir, .pe, .im, .dat, .trg]

/-- The cells of groups 1 to 3 in that order. -/
def savedCells : List (Nat × PxReg) := [1, 2, 3].flatMap fun i => savedRegs.map fun r => (i, r)

/-- The buffer and the pointer into it. -/
abbrev Save := (Nat → BitVec 32) × Nat

/-- `*ptr++ = ` a register. -/
def saveCell (b : Board) (st : Save) (cell : Nat × PxReg) : Save :=
  (fun k => if k = st.2 then b.gpio cell.1 cell.2 else st.1 k, st.2 + 1)

/-- The set register is written with `*ptr` and the clear register with `~(*ptr++)`. -/
def restoreCell (buf : Nat → BitVec 32) (st : Board × Nat) (cell : Nat × PxReg) : Board × Nat :=
  ((st.1.pxSet cell.1 cell.2 (buf st.2)).pxClear cell.1 cell.2 (~~~(buf st.2)), st.2 + 1)

/-- The pins of the PAVO board. -/
def pavoPins (b : Board) : Board :=
  let b := b.gpioAsInput (32 + 27)
  let b := [27, 28, 29, 30].foldl (fun b i => b.gpioEnablePull (32 + i)) b
  let b := b.gpioEnablePull (32 * 2 + 27)
  let b := b.gpioEnablePull (32 * 3 + 16)
  let b := [8, 9, 10, 11, 12, 13].foldl (fun b i => b.gpioEnablePull (32 * 3 + i)) b
  b.gpioSetPin (32 * 3 + 4)

/-- `jz_board_do_sleep` -/
def jzBoardDoSleep (pavo : Bool) (b : Board) (ptr : Nat → BitVec 32) :
    Board × (Nat → BitVec 32) :=
  let save := savedCells.foldl (saveCell b) (ptr, 0)
  let b := b.gpioAsSleep
  (if pavo then pavoPins b else b, save.1)

/-- `jz_board_do_resume` -/
def jzBoardDoResume (b : Board) (ptr : Nat → BitVec 32) : Board :=
  (savedCells.foldl (restoreCell ptr) (b, 0)).1

/-- What is set up to wake the system, and the sleep mode. -/
def enterSleep (b : Board) : Board :=
  let b := b.imsr 0xffffffff
  let b := b.intcUnmaskIrq IRQ_RTC
  let b := b.gpioAsIrqRiseEdge GPIO_WAKEUP
  let b := b.gpioUnmaskIrq GPIO_WAKEUP
  let b := b.intcUnmaskIrq IRQ_GPIO3
  { b with lcr := b.lcr &&& ~~~CPM_LCR_LPM_MASK ||| CPM_LCR_LPM_SLEEP }

/-- `jz_pm_do_sleep`, where the RTC counts `elapsed` seconds.  None if the loop that waits for the
SADC to stop does not end.  `stack` is what stands in `sleep_gpio_save` before. -/
def jzPmDoSleep (pavo : Bool) (elapsed : Nat) (stack : Nat → BitVec 32) (b : Board) :
    Option Board :=
  let nfcsr := b.nfcsr
  let scr := b.scr
  let imr := b.imr
  let sadc := b.sadcEna.setWidth 32
  let delta := b.xtimeSec - b.rsr
  let b := { b with nfcsr := ~~~0xff, sadcEna := b.sadcEna &&& ~~~0x7 }
  if b.sadcEna &&& 0x7 ≠ 0 then none
  else
    let b := { b with scr := b.scr &&& ~~~(1#32 <<< 6 ||| 1#32 <<< 7) }
    let b := { b with scr := b.scr ||| (0#32 <<< 6 ||| 1#32 <<< 7) }
    let slept := jzBoardDoSleep pavo b stack
    let b := enterSleep slept.1
    -- the processor waits
    let b := { b with rsr := b.rsr + BitVec.ofNat 32 elapsed }
    let b := { b with lcr := b.lcr &&& ~~~CPM_LCR_LPM_MASK ||| CPM_LCR_LPM_IDLE }
    let b := { b with nfcsr := nfcsr }
    let b := (b.imsr imr).imcr (~~~imr)
    let b := { b with sadcEna := sadc.setWidth 8 }
    let b := jzBoardDoResume b slept.2
    let b := { b with scr := scr }
    some { b with xtimeSec := b.rsr + delta }

end Dingoo.Pm
