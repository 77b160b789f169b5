/-
The matrix keypads, `drivers/input/keyboard/jz_keypad.c` (three by three keys) and
`drivers/input/keyboard/jz_keypad_5x5.c`.

A timer calls the scan function.  It drives one line after the other low and reads the lines
that cross it, and reports what became of the keys since the scan before.  Both drivers
remember one key, by row and column.

A scan is the level of each crossing line for each driven line; a pressed key makes it low.
What stands in memory behind the table of keycodes is an argument `past`, as the index
into the table is not tested.
-/
import Mathlib.Data.BitVec

namespace Dingoo.JzKeypad

/-- The level of the second line while the first one is driven. -/
abbrev Pins := Nat → Nat → Bool

/-- `__gpio_get_pin` -/
def gpioGetPin (level : Bool) : BitVec 16 := if level then 1 else 0

/-- `input_report_key` -/
structure Report where
  code : Nat
  pressed : Bool
deriving DecidableEq, Repr

/-- The last value reported for a keycode. -/
def lastValue (log : List Report) (code : Nat) : Option Bool :=
  log.foldl (fun value r => if r.code = code then some r.pressed else value) none

/-! ### Three by three -/

namespace Three

def KB_COLS : Nat := 3

/-- `KEY_1` to `KEY_7` of `linux/input.h` -/
def jzKbdKeycode : List Nat := [2, 5, 8, 3, 6, 0, 4, 7, 0]

def keycode (past : Nat → Nat) (i : Nat) : Nat := jzKbdKeycode.getD i (past i)

/-- The statics of the driver, with `suspended` of `struct jz_kbd`.  Each scan writes `s0` before
it is read. -/
structure Kbd where
  suspended : Bool
  s1 : Nat → BitVec 16
  precol : BitVec 16
  prerow : BitVec 16

def start : Kbd := { suspended := false, s1 := fun _ => 7, precol := 0, prerow := 0 }

/-- `jz_scan_kbd` -/
def jzScanKbd (pins : Pins) (i : Nat) : BitVec 16 :=
  (gpioGetPin (pins i 0) <<< 0) ||| (gpioGetPin (pins i 1) <<< 1) |||
    (gpioGetPin (pins i 2) <<< 2)

/-- All lines high. -/
def allHigh (s : Nat → BitVec 16) : Bool := s 0 = 7 && s 1 = 7 && s 2 = 7

/-- The tests up to `find_row_col`; none where two or three buttons are pressed, and for two of
the keys. -/
def findRowCol (s0 : Nat → BitVec 16) : Option (BitVec 16 × BitVec 16) :=
  if s0 0 = 6 ∧ s0 1 = 7 ∧ s0 2 = 7 then some (0, 2)
  else if s0 0 = 7 ∧ s0 1 = 3 ∧ s0 2 = 7 then some (2, 1)
  else if s0 0 = 7 ∧ s0 1 = 5 ∧ s0 2 = 7 then some (1, 1)
  else if s0 0 = 7 ∧ s0 1 = 6 ∧ s0 2 = 7 then some (0, 1)
  else if s0 0 = 7 ∧ s0 1 = 7 ∧ s0 2 = 3 then some (2, 0)
  else if s0 0 = 7 ∧ s0 1 = 7 ∧ s0 2 = 5 then some (1, 0)
  else if s0 0 = 7 ∧ s0 1 = 7 ∧ s0 2 = 6 then some (0, 0)
  else none

/-- `kbd_data->keycode[row * KB_COLS + col]` -/
def keyAt (past : Nat → Nat) (row col : BitVec 16) : Nat :=
  keycode past (row.toNat * KB_COLS + col.toNat)

def sameScan (s0 s1 : Nat → BitVec 16) : Bool := s0 0 = s1 0 && s0 1 = s1 1 && s0 2 = s1 2

/-- `jz_kbd_scankeyboard` -/
def jzKbdScankeyboard (past : Nat → Nat) (kbd : Kbd) (pins : Pins) : Kbd × List Report :=
  if kbd.suspended then (kbd, [])
  else
    let s0 := jzScanKbd pins
    if allHigh s0 then
      ({ kbd with precol := -1, prerow := -1, s1 := fun _ => 7 },
        if allHigh kbd.s1 then [] else [⟨keyAt past kbd.prerow kbd.precol, false⟩])
    else
      match findRowCol s0 with
      | none => ({ kbd with s1 := fun _ => 7, prerow := -1, precol := -1 }, [])
      | some (row, col) =>
        ({ kbd with s1 := s0, precol := col, prerow := row },
          if allHigh kbd.s1 then [⟨keyAt past row col, true⟩]
          else if sameScan s0 kbd.s1 then [⟨keyAt past row col, true⟩]
          else [⟨keyAt past kbd.prerow kbd.precol, false⟩, ⟨keyAt past row col, true⟩])

end Three

/-! ### Five by five -/

namespace Five

def KB_ROWS : Nat := 5
def KB_COLS : Nat := 5

/-- Letters `KEY_A` to `KEY_T`, `KEY_LEFTSHIFT`, `KEY_CAPSLOCK`, `KEY_SPACE`, `KEY_BACKSPACE` and
`KEY_Y` of `linux/input.h` -/
def jzKbdKeycode : List Nat :=
  [30, 48, 46, 32, 18,
   33, 34, 35, 23, 36,
   37, 38, 50, 49, 24,
   25, 16, 19, 31, 20,
   42, 58, 57, 14, 21]

def keycode (past : Nat → Nat) (i : Nat) : Nat := jzKbdKeycode.getD i (past i)

structure Kbd where
  suspended : Bool
  preScanResult : Nat → BitVec 16
  preCol : BitVec 16
  preRow : BitVec 16

def start : Kbd := { suspended := false, preScanResult := fun _ => 0x1F, preCol := 0, preRow := 0 }

/-- `GET_ROW_GPIO_PINS` for the driven line `i`, as `jz_do_scan` stores it -/
def jzDoScan (pins : Pins) (i : Nat) : BitVec 16 :=
  (List.range KB_ROWS).foldl (fun p j => p ||| (gpioGetPin (pins i j) <<< j)) 0

/-- `for (i = 0; i < KB_COLS && s[i] == 0x1F ; i++)`, with `n` left -/
def skipHigh (s : Nat → BitVec 16) : Nat → Nat → Nat
  | 0, i => i
  | n + 1, i => if s i = 0x1F then skipHigh s n (i + 1) else i

/-- `CHECK_IF_KEY_PRESSED` -/
def checkIfKeyPressed (s : Nat → BitVec 16) : Bool := skipHigh s KB_COLS 0 ≠ KB_ROWS

/-- The inner loop, with `n` columns left. -/
def findCol : Nat → BitVec 16 → Nat → Nat
  | 0, _, col => col
  | n + 1, i, col => if i &&& 0x01 = 0 then col else findCol n (i >>> 1) (col + 1)

/-- The outer loop, with `n` rows left. -/
def findRow (s : Nat → BitVec 16) : Nat → Nat → Nat × Nat
  | 0, row => (row, KB_COLS)
  | n + 1, row =>
    let col := findCol KB_COLS (s row) 0
    if col ≠ KB_COLS then (row, col) else findRow s n (row + 1)

/-- Row and column of the key found. -/
def findKey (s : Nat → BitVec 16) : BitVec 16 × BitVec 16 :=
  let found := findRow s KB_ROWS 0
  (BitVec.ofNat 16 found.1, BitVec.ofNat 16 found.2)

/-- `kbd_data->keycode[row * KB_COLS + col]` -/
def keyAt (past : Nat → Nat) (row col : BitVec 16) : Nat :=
  keycode past (row.toNat * KB_COLS + col.toNat)

/-- `jz_kbd_scan`.  The release of the previous key is reported with the column of the new one. -/
def jzKbdScan (past : Nat → Nat) (kbd : Kbd) (pins : Pins) : Kbd × List Report :=
  if kbd.suspended then (kbd, [])
  else
    let scanResult := jzDoScan pins
    if ¬ checkIfKeyPressed scanResult then
      ({ kbd with preCol := 0xFFFF, preRow := 0xFFFF, preScanResult := fun _ => 0x1F },
        if checkIfKeyPressed kbd.preScanResult then [⟨keyAt past kbd.preRow kbd.preCol, false⟩]
        else [])
    else
      let row := (findKey scanResult).1
      let col := (findKey scanResult).2
      ({ kbd with preScanResult := scanResult, preCol := col, preRow := row },
        if (col = kbd.preCol ∧ row = kbd.preRow) ∨
            (kbd.preCol = 0xFFFF ∧ kbd.preRow = 0xFFFF) then [⟨keyAt past row col, true⟩]
        else [⟨keyAt past kbd.preRow col, false⟩, ⟨keyAt past row col, true⟩])

end Five

end Dingoo.JzKeypad
