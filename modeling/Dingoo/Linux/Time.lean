/-
The clock source of the system timer, `arch/mips/jz4740/time.c`, as built for the A320:
a 12 MHz crystal and 100 ticks a second.

Channel 0 of the timer unit counts up at the crystal's clock divided by 16 and starts
again at 0 when it reaches the period programmed by `plat_time_init`.  It then raises
an interrupt; handling it adds one to `jiffies`.  `unsigned long` is 32 bits wide.

The registration of the clock source and of the event device is left out, and so is
the callback of the sound driver, which does not touch `jiffies` or the counter.
-/
import Mathlib.Algebra.Group.Nat.Defs
import Mathlib.Data.List.Count

namespace Dingoo.Time

/-- `JZ_EXTAL` -/
def jzExtal : Nat := 12000000

/-- `CONFIG_HZ` -/
def hz : Nat := 100

/-- `JZ_TIMER_CLOCK` -/
def jzTimerClock : Nat := jzExtal >>> 4

/-- The period `plat_time_init` programs. -/
def latch : Nat := (jzTimerClock + (hz >>> 1)) / hz

/-- The counter runs from 0 up to `latch - 1`. -/
structure State where
  jiffies : Nat
  /-- `REG_TCU_TCNT(0)` -/
  counter : Nat
  /-- the interrupt is raised and not yet handled -/
  pending : Bool
  bound : counter < latch

/-- The timer after `plat_time_init`, whatever `jiffies` starts at. -/
def platTimeInit (jiffies : Nat) : State := ⟨jiffies, 0, false, by decide⟩

inductive Act where
  | tick -- the counter advances
  | irq  -- the processor takes the interrupt
deriving DecidableEq, Repr

/-- The counter one clock later; it wraps to 0 and raises the interrupt. -/
def tick (s : State) : State :=
  if h : s.counter + 1 < latch then { s with counter := s.counter + 1, bound := h }
  else { s with counter := 0, pending := true, bound := by decide }

/-- `jz_timer_interrupt`: acknowledge, then the event handler counts the tick. -/
def jzTimerInterrupt (s : State) : State :=
  { s with pending := false, jiffies := s.jiffies + 1 }

def step (s : State) : Act → State
  | .tick => tick s
  | .irq => jzTimerInterrupt s

/-- The interrupt is taken when it is raised, and before the counter wraps again. -/
def Legal (s : State) : Act → Prop
  | .tick => s.counter + 1 = latch → s.pending = false
  | .irq => s.pending = true

instance decidableLegal (s : State) : ∀ a, Decidable (Legal s a)
  | .tick => inferInstanceAs (Decidable (_ → _))
  | .irq => inferInstanceAs (Decidable (_ = _))

/-- `jz_get_cycles`, from the values it reads of `jiffies` and of the counter. -/
def jzGetCycles (jiffies tcnt : Nat) : Nat :=
  (jiffies * (jzTimerClock / hz) + tcnt) % 4294967296

end Dingoo.Time
