/-
The cable monitor step by step, `drivers/char/jzchar/udc_hotplug.c`, with `jz_udc_active`.

The driver of the device controller sets `jz_udc_active`; an expiry of the long timer reads and
clears it.  Expiries and settings come at any time, also while the thread samples the pin,
so a step here is one of them, a wake-up of the thread, or one turn of its sampling.  The
functions are those of the monitor's model.
-/
import Dingoo.Linux.UdcHotplug

namespace Dingoo.UdcActivity

open Dingoo.UdcHotplug

/-- Where the thread is: in its outer wait, or in the loop of `udc_get_pnp_stat`, with whether a
cable was connected before, `udc_pin_time` and `udc_pin_level`. -/
inductive Phase
  | outer
  | sampling (connected : Bool) (udcPinTime : Nat) (udcPinLevel : Bool)
deriving DecidableEq, Repr

structure Monitor where
  cur : State := {}
  /-- `jz_udc_active` -/
  active : Bool := false
  phase : Phase := .outer
deriving DecidableEq, Repr

inductive Input
  | setActive
  /-- the long timer expires, if it is pending -/
  | expiry
  /-- the thread is woken; the pin before the sampling -/
  | wake (first : Bool)
  /-- the thread wakes from a sleep of the sampling: the pin, the pin read once more if it has
  changed, and if the sampling is over the pin after it and the kind of cable -/
  | sample (pin again last usb : Bool)
deriving DecidableEq, Repr

/-- The timer routine declares the connection inactive. -/
def declares (m : Monitor) : Bool := m.cur.armed && !m.active && m.cur.udcOldState

/-- The routine returns before it clears `jz_udc_active` if it declares the connection inactive. -/
def expire (m : Monitor) : Monitor :=
  if m.cur.armed then
    { m with
      cur := udcLongTimerRoutine m.cur m.active
      active := if declares m then m.active else false }
  else m

/-- `udc_pin_level` after a turn of the sampling. -/
def nextLevel (udcPinLevel pin again : Bool) : Bool :=
  if pin != udcPinLevel then again else udcPinLevel

/-- `udc_pin_time` after a turn of the sampling. -/
def nextTime (udcPinTime : Nat) (udcPinLevel pin : Bool) : Nat :=
  (if pin != udcPinLevel then 1 else udcPinTime) + 1

def step (m : Monitor) : Input → Monitor
  | .setActive => { m with active := true }
  | .expiry => expire m
  | .wake first =>
    match m.phase with
    | .outer => { m with phase := .sampling m.cur.cableStat 1 first }
    | .sampling .. => m
  | .sample pin again last usb =>
    match m.phase with
    | .outer => m
    | .sampling connected time level =>
      if nextTime time level pin > maxGpioTime then
        { m with cur := detected connected last usb m.cur, phase := .outer }
      else
        { m with
          phase := .sampling connected (nextTime time level pin)
            (nextLevel level pin again) }

end Dingoo.UdcActivity
