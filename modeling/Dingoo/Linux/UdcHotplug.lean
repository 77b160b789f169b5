/-
The USB cable monitor, `drivers/char/jzchar/udc_hotplug.c`.

A kernel thread sleeps until it is woken by a change of the cable pin or by a timer.  It
then samples the pin until it is stable, finds out what kind of cable has been plugged
in, and registers `udc_cable` or `power_cable` as a misc device for user space.  A second
timer, armed while a USB cable is registered, watches the traffic of the USB device
controller; when it stops, the cable counts as a power cable from then on.

The outside world is what a wake-up brings: the expiries of the timer in the outer wait
and at each sleep of the sampling, the pin as it is read, and the kind of cable.  An
expiry comes with the value of `jz_udc_active`, which the device controller's driver
sets.  Registering a misc device succeeds.  The uevents sent along with each
registration, the registers of the cable detection, the fields `object_stat1` and
`object_stat2`, which nothing reads, and the trigger edge of the pin are left out.
-/
import Mathlib.Data.List.Basic

namespace Dingoo.UdcHotplug

/-! ### The misc layer -/

inductive Dev where
  | cable -- cable_dev
  | power -- power_dev
deriving DecidableEq, Repr

/-- A call to `misc_register` or `misc_deregister`. -/
inductive MiscCall where
  | register (d : Dev)
  | deregister (d : Dev)
deriving DecidableEq, Repr

/-- Which devices are registered, after a call. -/
def miscStep (registered : Dev → Bool) : MiscCall → Dev → Bool
  | .register d => fun e => if e = d then true else registered e
  | .deregister d => fun e => if e = d then false else registered e

/-- A device is registered when it is not, and deregistered when it is. -/
def MiscLegal (registered : Dev → Bool) : MiscCall → Prop
  | .register d => registered d = false
  | .deregister d => registered d = true

/-! ### The driver -/

/-- `cur_pnp_stat`, with `YES_CONNECT` as `true`, and the long timer. -/
structure State where
  cableStat : Bool := false
  oldCableStat : Bool := false
  protlStat : Bool := false
  oldProtlStat : Bool := false
  udcOldState : Bool := false
  /-- `udc_long_timer` is pending -/
  armed : Bool := false
  /-- the calls into the misc layer, oldest first -/
  calls : List MiscCall := []
  deriving DecidableEq, Repr

/-- The devices registered by a sequence of calls. -/
def registeredBy (calls : List MiscCall) : Dev → Bool := calls.foldl miscStep fun _ => false

def State.registered (s : State) : Dev → Bool := registeredBy s.calls

/-- `MAX_GPIO_TIME` -/
def maxGpioTime : Nat := 50

/-- An expiry of the long timer; `active` is `jz_udc_active`. -/
def udcLongTimerRoutine (s : State) (active : Bool) : State :=
  if s.armed then
    let udcOldState := if active then true else s.udcOldState
    -- the device controller has gone quiet: suspend
    if !active && udcOldState then
      { s with udcOldState := false, protlStat := false, armed := false }
    else { s with udcOldState := udcOldState, armed := true }
  else s

/-- A sleep of the sampling: the expiries of the long timer in it, the pin read after it, and
the pin read once more if it has changed. -/
structure Sleep where
  expiries : List Bool
  pin : Bool
  again : Bool

/-- The loop of `udc_get_pnp_stat`; `none` while the pin has not been stable long enough. -/
def debounce : Nat → Bool → List Sleep → State → Option State
  | _, _, [], _ => none
  | udcPinTime, udcPinLevel, x :: sleeps, s =>
    let s := x.expiries.foldl udcLongTimerRoutine s
    let changed := x.pin != udcPinLevel
    let udcPinLevel := if changed then x.again else udcPinLevel
    let udcPinTime := (if changed then 1 else udcPinTime) + 1
    if udcPinTime > maxGpioTime then some s else debounce udcPinTime udcPinLevel sleeps s

/-- What happens from one wait of the thread to the next. -/
structure Wake where
  /-- expiries of the long timer in the outer wait -/
  idle : List Bool
  /-- the pin before the sampling -/
  first : Bool
  sleeps : List Sleep
  /-- the pin after the sampling -/
  last : Bool
  /-- `REG8(USB_REG_INTRUSB)` shows reset, resume or suspend -/
  usb : Bool

/-- The pin level is the one read after the sampling. -/
def udcGetPnpStat (w : Wake) (s : State) : Option (Bool × State) :=
  (debounce 1 w.first w.sleeps s).map fun s => (w.last, s)

def udcGetCable (usb : Bool) (s : State) : State := { s with protlStat := usb }

inductive Event where
  | usbAdd
  | usbRemove
  | powerAdd
  | powerRemove
  | powerToUsb
  | usbSuspendPower
deriving DecidableEq, Repr

def miscRegister (d : Dev) (s : State) : State := { s with calls := s.calls ++ [.register d] }

def miscDeregister (d : Dev) (s : State) : State := { s with calls := s.calls ++ [.deregister d] }

def sendEventUdev (event : Event) (s : State) : State :=
  match event with
  | .usbAdd => { miscRegister .cable s with armed := true }
  | .usbRemove => { miscDeregister .cable s with armed := false }
  | .powerAdd => miscRegister .power s
  | .powerRemove => miscDeregister .power s
  | .powerToUsb => miscRegister .cable (miscDeregister .power s)
  | .usbSuspendPower => miscRegister .power (miscDeregister .cable s)

/-- `old_cable_stat = cable_stat; old_protl_stat = protl_stat` -/
def copyStat (s : State) : State :=
  { s with oldCableStat := s.cableStat, oldProtlStat := s.protlStat }

/-- `udc_pnp_detect` behind its call of `udc_get_pnp_stat`, which returned `level`; `connected` is
the status of the cable before it. -/
def detected (connected level usb : Bool) (s : State) : State :=
  if connected then
    if level = false then
      let s := { s with cableStat := false, protlStat := false }
      copyStat (sendEventUdev (if s.oldProtlStat then .usbRemove else .powerRemove) s)
    else if s.oldProtlStat ≠ s.protlStat then copyStat (sendEventUdev .usbSuspendPower s)
    else s
  else if level = true then
    let s := udcGetCable usb { s with cableStat := true }
    copyStat (sendEventUdev (if s.protlStat then .usbAdd else .powerAdd) s)
  else s

def udcPnpDetect (w : Wake) (s : State) : Option State :=
  (udcGetPnpStat w s).map fun (level, s') => detected s.cableStat level w.usb s'

/-- One turn of `udc_pnp_thread`: the outer wait, then the detection. -/
def udcPnpThread (s : State) (w : Wake) : Option State :=
  udcPnpDetect w (w.idle.foldl udcLongTimerRoutine s)

/-- Successive wake-ups after `udc_hotplug_init`, up to the return to the outer wait. -/
def wakeUps (wakes : List Wake) : Option State := wakes.foldlM udcPnpThread {}

end Dingoo.UdcHotplug
