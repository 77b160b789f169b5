/-
Interrupt dispatch, `arch/mips/jz4740/irq.c`.

The interrupt controller shows 32 lines in its pending register.  Four of them stand for
the GPIO groups and one for the DMA controller, whose own registers tell the pin or the
channel.  `plat_irq_dispatch` collects the pending lines in a static word, and each call
takes one of them out of it.

The registers are arguments of each call.  What `do_IRQ` does is left out: a handler that
is interrupted by another call leaves the static word as that call does.
-/
import Mathlib.Data.BitVec

namespace Dingoo.Irq

def IRQ_DMAC : Nat := 20
def IRQ_GPIO3 : Nat := 25
def IRQ_GPIO2 : Nat := 26
def IRQ_GPIO1 : Nat := 27
def IRQ_GPIO0 : Nat := 28
/-- 32 to 37 for DMAC channel 0 to 5 -/
def IRQ_DMA_0 : Nat := 32
/-- 48 to 175 for GPIO pin 0 to 127 -/
def IRQ_GPIO_0 : Nat := 48
def MAX_DMA_NUM : Nat := 6

/-- What is read from the registers: `REG_INTC_IPR`, `REG_GPIO_PXFLG` of the four groups, and
`REG_DMAC_DMAIPR`. -/
structure Regs where
  ipr : BitVec 32
  flg : Nat → BitVec 32
  dmaipr : BitVec 32

/-- The first bit set from bit `i` on, of `n` bits; -1 if there is none. -/
def firstBit (x : BitVec 32) : Nat → Nat → Int
  | _, 0 => -1
  | i, n + 1 => if x &&& (1#32 <<< i) ≠ 0 then i else firstBit x (i + 1) n

def ffs (x : BitVec 32) : Int := firstBit x 0 32 + 1

/-- `__dmac_get_irq` -/
def dmacGetIrq (r : Regs) : Int := firstBit r.dmaipr 0 MAX_DMA_NUM

/-- `for (i = 31; i >= 0; i--) if (tmp & (1 << i)) break;` from `n - 1` on -/
def lastBit (tmp : BitVec 32) : Nat → Int
  | 0 => -1
  | i + 1 => if tmp &&& (1#32 <<< i) ≠ 0 then i else lastBit tmp i

/-- `__gpio_group_irq` -/
def gpioGroupIrq (r : Regs) (n : Nat) : Int := lastBit (r.flg n) 32

/-- `plat_real_irq` -/
def platRealIrq (r : Regs) (irq : Int) : Int :=
  if irq = IRQ_GPIO0 then gpioGroupIrq r 0 + IRQ_GPIO_0
  else if irq = IRQ_GPIO1 then gpioGroupIrq r 1 + IRQ_GPIO_0 + 32
  else if irq = IRQ_GPIO2 then gpioGroupIrq r 2 + IRQ_GPIO_0 + 64
  else if irq = IRQ_GPIO3 then gpioGroupIrq r 3 + IRQ_GPIO_0 + 96
  else if irq = IRQ_DMAC then dmacGetIrq r + IRQ_DMA_0
  else irq

/-- `plat_irq_dispatch`: the number given to `do_IRQ`, if there is one, and the static word
`intc_ipr` afterwards. -/
def platIrqDispatch (intcIpr : BitVec 32) (r : Regs) : Option Int × BitVec 32 :=
  let intcIpr := intcIpr ||| r.ipr
  if intcIpr = 0 then (none, intcIpr)
  else
    let irq := ffs intcIpr - 1
    (some (platRealIrq r irq), intcIpr &&& ~~~(1#32 <<< irq.toNat))

end Dingoo.Irq
