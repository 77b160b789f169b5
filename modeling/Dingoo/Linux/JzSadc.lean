/-
The SAR-ADC driver, `drivers/char/jzchar/jz_sadc.c`: the acquisition of a touch event.

Three samples are read.  They have to be close to each other and to the event before;
their average is the position of the pen, in screen coordinates if the `filter` flag is
set.  All arithmetic is unsigned and of 32 bits.  A division is a partial function, so that
an acquisition that divides by zero has no result.

What the converter delivers is an argument: the two words of its data register for each
sample.  Waiting for a sample and printing it are left out.
-/
import Dingoo.Linux.JzTs

namespace Dingoo.Ts

/-- Unsigned division. -/
def quot (a b : BitVec 32) : Option (BitVec 32) := if b = 0 then none else some (a / b)

def DIFF (a b : BitVec 32) : BitVec 32 := if a > b then a - b else b - a

def MIN (a b : BitVec 32) : BitVec 32 := if a < b then a else b

/-! ### The file-level variables -/

structure Sadc where
  firstTime : Bool
  lastX : BitVec 32
  lastY : BitVec 32
  lastP : BitVec 32
  oldX : BitVec 32
  oldY : BitVec 32
deriving DecidableEq, Repr

/-- `samples`; nothing changes it -/
def samples : Nat := 3

/-! ### Screen coordinates -/

def TSMAXX : BitVec 32 := 945
def TSMAXY : BitVec 32 := 830
def TSMINX : BitVec 32 := 90
def TSMINY : BitVec 32 := 105
def SCREEN_X : BitVec 32 := 480
def SCREEN_Y : BitVec 32 := 272

/-- A reading below `lo` is taken as `min`, then one above `hi` as `max`; then it is scaled. -/
def toScreen (lo hi min max size v : BitVec 32) : Option (BitVec 32) :=
  let v := if v < lo then min else v
  let v := if v > hi then max else v
  quot ((v - min) * size) (max - min)

/-- `transform_to_screen_x` -/
def transformToScreenX (ts : JzTs) (x : BitVec 32) : Option (BitVec 32) :=
  if ts.minx ≠ 0 then toScreen ts.minx ts.maxx ts.minx ts.maxx SCREEN_X x
  else toScreen TSMINX TSMAXX TSMINX TSMAXX SCREEN_X x

/-- `transform_to_screen_y`; it goes by the bounds of `x`. -/
def transformToScreenY (ts : JzTs) (y : BitVec 32) : Option (BitVec 32) :=
  if ts.minx ≠ 0 then toScreen ts.minx ts.maxx ts.miny ts.maxy SCREEN_Y y
  else toScreen TSMINX TSMAXX TSMINY TSMAXY SCREEN_Y y

/-! ### Samples -/

/-- A sample as it is used: `x_raw[i]`, `y_raw[i]` and `p_raw[i]`. -/
structure Raw where
  x : BitVec 32
  y : BitVec 32
  p : BitVec 32
deriving DecidableEq, Repr

/-- `jz4740_adc_read`, from the two words of `REG_SADC_TSDAT`; the two axes change places in
`AcquireEvent`. -/
def adcRead (words : BitVec 32 × BitVec 32) : Raw where
  x := words.1 &&& 0x0fff
  y := (words.1 >>> 16) &&& 0x0fff
  p := words.2 &&& 0x0fff

def total (f : Raw → BitVec 32) (raw : List Raw) : BitVec 32 := (raw.map f).foldl (· + ·) 0

def MAX_DELTA : BitVec 32 := 20

/-- What the validity tests compare, in their order: each sample with the one before it. -/
def deltas : List Raw → List (BitVec 32 × BitVec 32)
  | a :: b :: raw => (b.x, a.x) :: (b.y, a.y) :: (b.p, a.p) :: deltas (b :: raw)
  | _ => []

/-- The loop of the validity tests. -/
def checkDeltas : List (BitVec 32 × BitVec 32) → Option Bool
  | [] => some true
  | (a, b) :: rest =>
    (quot (100 * DIFF a b) (MIN a b)).bind fun q =>
      if q > MAX_DELTA then some false else checkDeltas rest

/-- The samples are compared with those of the last event. -/
def checkOld (avlX avlY : BitVec 32) (ts : JzTs) (s : Sadc) : Bool × JzTs × Sadc :=
  let s := if ts.firstRead then { s with oldX := avlX, oldY := avlY } else s
  let ts := { ts with firstRead := false }
  if DIFF s.oldX avlX < 100 && DIFF s.oldY avlY < 100 then
    (true, ts, { s with oldX := avlX, oldY := avlY })
  else (false, ts, s)

/-- `calibrate_samples`: whether the average is valid, and the average. -/
def calibrateSamples (raw : List Raw) (count : BitVec 32) (s : Sadc) :
    Option (Bool × Raw × Sadc) :=
  (quot (total Raw.x raw) count).bind fun xCal =>
  (quot (total Raw.y raw) count).bind fun yCal =>
  (quot (total Raw.p raw) count).bind fun pCal =>
    let valid := s.firstTime || !(DIFF xCal s.lastX > 50 || DIFF yCal s.lastY > 50)
    some (valid, ⟨xCal, yCal, pCal⟩,
      { s with firstTime := false, lastX := xCal, lastY := yCal, lastP := pCal })

/-- `x_scr` and `y_scr` -/
def screenPoint (ts : JzTs) (point : Raw) : Option (BitVec 32 × BitVec 32) :=
  if ts.filter then
    (transformToScreenX ts point.x).bind fun x =>
    (transformToScreenY ts point.y).bind fun y => some (x, y)
  else some (point.x, point.y)

/-- The event of a valid average. -/
def reportPoint (ts : JzTs) (point : Raw) (event : TsEvent) : Option TsEvent :=
  (screenPoint ts point).bind fun scr =>
    some { event with
      x := scr.1.setWidth 16, y := scr.2.setWidth 16, pressure := point.p.setWidth 16
      status := PENDOWN }

/-- What follows the validity tests of the samples. -/
def acquireValid (ts : JzTs) (s : Sadc) (raw : List Raw) (event : TsEvent) :
    Option (Bool × TsEvent × JzTs × Sadc) :=
  (calibrateSamples raw (BitVec.ofNat 32 samples) s).bind fun r =>
    if r.1 then (reportPoint ts r.2.1 event).bind fun e => some (true, e, ts, r.2.2)
    else some (false, event, ts, r.2.2)

/-- `AcquireEvent`: the value returned, and `*event` afterwards. -/
def acquireEvent (ts : JzTs) (s : Sadc) (words : Nat → BitVec 32 × BitVec 32) (event : TsEvent) :
    Option (Bool × TsEvent × JzTs × Sadc) :=
  -- every read leaves `sleeping` clear, whether it had to wait or not
  let ts := { ts with sleeping := false }
  let raw := (List.range samples).map fun i => adcRead (words i)
  (quot (total Raw.x raw) (BitVec.ofNat 32 samples)).bind fun avlX =>
  (quot (total Raw.y raw) (BitVec.ofNat 32 samples)).bind fun avlY =>
  (checkDeltas (deltas raw)).bind fun valid =>
    if valid then
      let r := checkOld avlX avlY ts s
      if r.1 then acquireValid r.2.1 r.2.2 raw event
      else some (false, event, r.2.1, r.2.2)
    else some (false, event, ts, s)

end Dingoo.Ts
