/-
The polled button driver, `drivers/input/keyboard/jz_gpio_keys.c`, as built for the
A320 (`GPIO_POWER`, `GPIO_POWER_ACTLOW` and `SYSRQ_ALT` defined).

One poll reads every pin once, so its input is a function from GPIO numbers to
levels; its output is the list of calls it makes into the input and sysrq layers, in
order.  `unsigned long` is 32 bits wide here.  The device registration in
`jz_kbd_init` and the `wakeup` column, which nothing reads, are left out.
-/
import Mathlib.Data.List.Basic

namespace Dingoo.GpioKeys

/-- A call the driver makes: `input_report_key`, `input_sync` or `handle_sysrq`. -/
inductive Event
  | key (code : Nat) (value : Bool)
  | sync
  | sysrq (code : Nat)
  deriving DecidableEq, Repr

/-- A row of `jz_button`.  A code of 0 is an absent one. -/
structure Button where
  gpio : Nat
  actlow : Bool := false
  ncode : Nat
  scode : Nat := 0
  sysrq : Nat := 0
  deriving DecidableEq, Repr

def jzButton : List Button :=
  [ -- KEY_UP, KEY_VOLUMEUP: D-pad up
    { gpio := 102, actlow := true, ncode := 103, scode := 115, sysrq := 's'.toNat },
    -- KEY_DOWN, KEY_VOLUMEDOWN: D-pad down
    { gpio := 123, actlow := true, ncode := 108, scode := 114, sysrq := 'u'.toNat },
    -- KEY_LEFT, KEY_BRIGHTNESSDOWN: D-pad left
    { gpio := 101, actlow := true, ncode := 105, scode := 224, sysrq := 'e'.toNat },
    -- KEY_RIGHT, KEY_BRIGHTNESSUP: D-pad right
    { gpio := 114, actlow := true, ncode := 106, scode := 225, sysrq := 'i'.toNat },
    { gpio := 96, actlow := true, ncode := 29 },               -- KEY_LEFTCTRL: A button
    { gpio := 97, actlow := true, ncode := 56 },               -- KEY_LEFTALT: B button
    { gpio := 115, actlow := true, ncode := 57 },              -- KEY_SPACE: X button
    { gpio := 98, actlow := true, ncode := 42 },               -- KEY_LEFTSHIFT: Y button
    { gpio := 110, actlow := true, ncode := 15, scode := 174 }, -- KEY_TAB, KEY_EXIT: left shoulder
    { gpio := 111, actlow := true, ncode := 14 },              -- KEY_BACKSPACE: right shoulder
    { gpio := 81, actlow := true, ncode := 28 },               -- KEY_ENTER: START button
    -- KEY_ESC, KEY_MENU: SELECT button
    { gpio := 113, actlow := true, ncode := 1, scode := 139, sysrq := 'b'.toNat } ]

/-- `GPIO_POWER`, the power slider, active low. -/
def gpioPower : Nat := 125

/-- `SYSRQ_ALT`, the index of START in the table. -/
def sysrqAlt : Nat := 10

/-- `POWER_INTERVAL / SCAN_INTERVAL` -/
def powerCount : Nat := 2000 / 20

/-- `REBOOT_INTERVAL / SCAN_INTERVAL` -/
def rebootCount : Nat := 5000 / 20

/-- `KEY_POWER` -/
def keyPower : Nat := 116

/-- `struct jz_kbd` -/
structure Kbd where
  normalState : BitVec 32 := 0
  specialState : BitVec 32 := 0
  sysrqState : BitVec 32 := 0
  actlow : BitVec 32 := 0
  powerState : Bool := false
  powerCount : Nat := 0
  deriving DecidableEq, Repr

/-- The loop that sets bit `i` for every button that passes the test. -/
def setBits (test : Button → Bool) : BitVec 32 → BitVec 32 → List Button → BitVec 32
  | s, _, [] => s
  | s, m, b :: l => setBits test (if test b then s ||| m else s) (m <<< 1) l

/-- `for (i = 0, m = 1; i < ARRAY_SIZE(jz_button); i++, m <<= 1)` around a body. -/
def forButtons (body : BitVec 32 → Button → List Event) : BitVec 32 → List Button → List Event
  | _, [] => []
  | m, b :: l => body m b ++ forButtons body (m <<< 1) l

/-- The static `jz_kbd` after `jz_kbd_init` has prepared the active low mask. -/
def jzKbdInit : Kbd := { actlow := setBits (·.actlow) 0 1 jzButton }

/-- Report the keycode of every button that has one and whose bit is set in `x`. -/
def reportKeys (code : Button → Nat) (x s : BitVec 32) : List Event :=
  forButtons (fun m b =>
    if x &&& m ≠ 0 ∧ code b ≠ 0 then [.key (code b) (s &&& m ≠ 0)] else []) 1 jzButton

/-- `if (sync) input_sync(input)` -/
def inputSync (sync : Nat) : List Event := if sync ≠ 0 then [.sync] else []

/-- Slider and START pressed: system requests, on key press only. -/
def pollSysrq (kbd : Kbd) (s : BitVec 32) : Kbd × List Event :=
  let x := s ^^^ kbd.sysrqState
  let requests := forButtons (fun m b =>
    if x &&& s &&& m ≠ 0 ∧ b.sysrq ≠ 0 then [.sysrq b.sysrq] else []) 1 jzButton
  ({ kbd with powerCount := 0, sysrqState := s }, requests ++ inputSync 0)

/-- The slider counter: the calls made, how often `sync` is incremented, and the count. -/
def pollPower (kbd : Kbd) : List Event × Nat × Nat :=
  if kbd.powerState = false then ([], 0, 1)
  else if kbd.powerCount > 0 then
    let power := if kbd.powerCount = powerCount
      then [.key keyPower true, .key keyPower false] else []
    let reboot := if kbd.powerCount = rebootCount
      then [.sysrq 's'.toNat, .sysrq 'u'.toNat, .sysrq 'b'.toNat] else []
    (power ++ reboot, if kbd.powerCount = powerCount then 1 else 0,
      (kbd.powerCount + 1) % 4294967296)
  else ([], 0, kbd.powerCount)

/-- Slider pressed without START: special keycodes for changed keys. -/
def pollSpecial (kbd : Kbd) (s : BitVec 32) : Kbd × List Event :=
  let keys := reportKeys (·.scode) (s ^^^ kbd.specialState) s
  let (calls, sync, count) := pollPower kbd
  ({ kbd with
      powerCount := if s ≠ 0 then 0 else count
      specialState := s
      powerState := true },
    keys ++ calls ++ inputSync (keys.length + sync))

/-- Slider not pressed: normal keycodes for changed keys. -/
def pollNormal (kbd : Kbd) (s : BitVec 32) : Kbd × List Event :=
  let keys := reportKeys (·.ncode) (s ^^^ kbd.normalState) s
  ({ kbd with powerCount := 0, normalState := s, powerState := false },
    keys ++ inputSync keys.length)

def jzKbdPoll (kbd : Kbd) (pin : Nat → Bool) : Kbd × List Event :=
  let s := setBits (fun b => pin b.gpio) 0 1 jzButton ^^^ kbd.actlow
  let p := !pin gpioPower
  if p then
    if s &&& (1 <<< sysrqAlt) ≠ 0 then pollSysrq kbd s
    else pollSpecial kbd s
  else pollNormal kbd s

/-- Successive polls: the driver's state with everything it has reported. -/
def polls (samples : List (Nat → Bool)) : Kbd × List Event :=
  samples.foldl
    (fun run pin => ((jzKbdPoll run.1 pin).1, run.2 ++ (jzKbdPoll run.1 pin).2))
    (jzKbdInit, [])

/-! ### What an observer of the reports sees -/

/-- The values reported for a keycode, oldest first. -/
def values (code : Nat) (log : List Event) : List Bool :=
  log.filterMap fun
    | .key c v => if c = code then some v else none
    | _ => none

/-- The state the input layer has last been told; a key starts released. -/
def lastValue (code : Nat) (log : List Event) : Bool := (values code log).getLastD false

/-- Press, release, press, … starting with a press. -/
def Alternates (l : List Bool) : Prop := (false :: l).IsChain (· ≠ ·)

/-- The sampled state of a button. -/
def pressed (pin : Nat → Bool) (b : Button) : Bool := pin b.gpio ^^ b.actlow

/-- The sampled state of the power slider. -/
def sliderPressed (pin : Nat → Bool) : Bool := !pin gpioPower

/-- The sampled state of the button that turns the slider into the sysrq key. -/
def startPressed (pin : Nat → Bool) : Bool := jzButton[sysrqAlt]?.any (pressed pin)

end Dingoo.GpioKeys
