/-
The touch screen driver, `drivers/char/jzchar/jz_ts.c`: its event queue.

The pen interrupt and the acquisition timer add events, `read` takes them out.  Each of
the two calls runs under the spinlock of the device.  Waking and signalling the readers
is left out, and so are the timer and the wait queue.
-/
import Mathlib.Logic.Function.Basic

namespace Dingoo.Ts

/-- `struct ts_event` -/
structure TsEvent where
  status : BitVec 16
  x : BitVec 16
  y : BitVec 16
  pressure : BitVec 16
  pad : BitVec 16
deriving DecidableEq, Repr

def PENDOWN : BitVec 16 := 0x01

/-- must be a power of two -/
def EVENT_BUFSIZE : Nat := 64

/-- `struct jz_ts_t`: the event queue, the calibration and the flags of the acquisition. -/
structure JzTs where
  penIsDown : Bool
  irqEnabled : Bool
  eventBuf : Nat → TsEvent
  nextIn : Nat
  nextOut : Nat
  eventCount : Nat
  minx : BitVec 32
  miny : BitVec 32
  maxx : BitVec 32
  maxy : BitVec 32
  filter : Bool
  sleeping : Bool
  firstRead : Bool

/-- `event_add` -/
def eventAdd (event : TsEvent) (ts : JzTs) : JzTs :=
  let ts := { ts with
    eventBuf := Function.update ts.eventBuf ts.nextIn event
    nextIn := (ts.nextIn + 1) &&& (EVENT_BUFSIZE - 1) }
  if ts.eventCount < EVENT_BUFSIZE then { ts with eventCount := ts.eventCount + 1 }
  else
    -- throw out the oldest event
    { ts with nextOut := (ts.nextOut + 1) &&& (EVENT_BUFSIZE - 1) }

/-- `event_pull`: the value returned, and `*event` afterwards. -/
def eventPull (event : TsEvent) (ts : JzTs) : Nat × TsEvent × JzTs :=
  if ts.eventCount ≠ 0 then
    (ts.eventCount, ts.eventBuf ts.nextOut, { ts with
      nextOut := (ts.nextOut + 1) &&& (EVENT_BUFSIZE - 1)
      eventCount := ts.eventCount - 1 })
  else (ts.eventCount, event, ts)

/-- `jz_open`, up to the request of the interrupt: the pen is up and the queue is flushed. -/
def jzOpen (ts : JzTs) : JzTs :=
  { ts with
    penIsDown := false, sleeping := false, nextIn := 0, nextOut := 0, eventCount := 0,
    irqEnabled := true }

end Dingoo.Ts
