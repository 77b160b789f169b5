/-
The ioctls of the OSS sound driver (sound/oss/jz_i2s.c) that look at the playback side
from outside: `SNDCTL_DSP_SETFRAGMENT` frees the queues and sets them up anew for other
fragments, `SNDCTL_DSP_GETOSPACE` reports how much can be written at once and
`SNDCTL_DSP_GETOPTR` how far the playback has come.

The first two do not run beside a write, but all three run beside the interrupt.
`SETFRAGMENT` waits half a second between freeing and allocating, so it is two steps.  In
between the arrays of the queues are null pointers while their counts are not zero; its result
does not tell whether the allocations have succeeded, so they may stay so for good, or hold
whatever was in the memory.  Nothing stops the channel, so every transfer that has been
started raises its interrupt at some later time, whatever has become of the queues:
`served` counts the interrupts that have come.
-/
import Dingoo.Linux.JzI2s
import Mathlib.Data.BitVec

namespace Dingoo.JzI2s

/-- `newfragsize`: four to sixteen pages.  The shift takes the low five bits of its
amount, and `PAGE_SIZE` makes the comparisons unsigned. -/
def newFragsize (val : BitVec 32) : Nat :=
  let size := (1#32 <<< ((val &&& 0xFFFF).toNat % 32)).toNat
  let size := if size < 4 * 4096 then 4 * 4096 else size
  if size > 16 * 4096 then 16 * 4096 else size

/-- `newfragstotal`: two to 32. -/
def newFragstotal (val : BitVec 32) : Nat :=
  let total := ((val >>> 16) &&& 0x7FFF).toNat
  let total := if total < 2 then 2 else total
  if total > 32 then 32 else total

/-- The outcome of `Init_In_Out_queue`, as far as it shows in the playback queues. -/
inductive Alloc where
  /-- everything is there; `counts` is what the new array of data counts holds -/
  | ok (counts : Int → Nat)
  /-- the queues are set up, but not all DMA buffers can be had: what there is of them is freed -/
  | pagesFailed (counts : Int → Nat)
  /-- an allocation for the recording half fails -/
  | inFailed
  /-- an array of the playback half up to the ids of the empty queue cannot be allocated -/
  | outFailed
  /-- the ids of the full or of the busy queue cannot be allocated; those of the empty queue
  have been, and hold `ids` still -/
  | idsFailed (ids : Nat → Int)

/-- The driver with the device open for writing. -/
structure Device where
  cfg : Config
  play : State
  /-- the arrays and the DMA buffers of the playback half are allocated -/
  mapped : Bool
  /-- the ids of the empty queue are -/
  listed : Bool
  /-- fragment size and number of a `SETFRAGMENT` that has freed the queues -/
  pending : Option (Nat × Nat)
  /-- the interrupts that have come -/
  served : Nat
  /-- an id has been stored through a null pointer -/
  stray : Bool

/-- `jz_audio_open` for writing. -/
def Device.opened (cfg : Config) (s : State) : Device where
  cfg := cfg
  play := jzAudioOpen cfg s
  mapped := true
  listed := true
  pending := none
  served := 0
  stray := false

/-- `Free_In_Out_queue`, for the playback half. -/
def freeInOutQueue (d : Device) : Device :=
  { d with
    play := { d.play with
      outEmpty := { d.play.outEmpty with count := d.cfg.fragstotal }
      outBusy := d.play.outBusy.clear
      outFull := d.play.outFull.clear }
    mapped := false
    listed := false }

/-- The queues with all fragments empty. -/
def setUpQueues (counts : Int → Nat) (d : Device) : Device :=
  { d with
    play := { d.play with
      outEmpty := ⟨d.cfg.fragstotal, fun i => (i : Int)⟩
      outBusy := d.play.outBusy.clear
      outFull := d.play.outFull.clear
      dataCount := counts }
    listed := true }

/-- `Init_In_Out_queue`, for the playback half. -/
def initInOutQueue (alloc : Alloc) (d : Device) : Device :=
  match alloc with
  | .ok counts => { setUpQueues counts d with mapped := true }
  | .pagesFailed counts => setUpQueues counts d
  | .inFailed => d
  | .outFailed =>
    { d with play := { d.play with
        outEmpty := { d.play.outEmpty with count := d.cfg.fragstotal } } }
  | .idsFailed ids =>
    { d with play := { d.play with outEmpty := ⟨d.cfg.fragstotal, ids⟩ }, listed := true }

/-- `SNDCTL_DSP_SETFRAGMENT` up to its `mdelay(500)`. -/
def setFragment (val : BitVec 32) (d : Device) : Device :=
  if d.cfg.fragstotal = newFragstotal val ∧ d.cfg.fragsize = newFragsize val then d
  else { freeInOutQueue d with pending := some (newFragsize val, newFragstotal val) }

/-- The rest of it. -/
def rebuild (alloc : Alloc) (d : Device) : Device :=
  match d.pending with
  | none => d
  | some (size, total) =>
    initInOutQueue alloc
      { d with cfg := { d.cfg with fragsize := size, fragstotal := total }, pending := none }

/-- The process is killed: `get_buffer_id` reads a null pointer, or a fragment is filled that has
no buffer.  Its address is null, that of a freed page or whatever was in the memory; all of
these are taken as a fault. -/
def Device.faults (d : Device) : Bool :=
  match d.play.pc with
  | .getEmpty _ => !d.listed && elementsInQueue d.play.outEmpty != 0
  | .fill _ _ => !d.mapped
  | _ => false

/-- A step of the writer. -/
def writerTurn (d : Device) : Device :=
  if d.faults then { d with play := { d.play with pc := .idle } }
  else { d with play := writerStep d.cfg d.play }

/-- The interrupt at the end of a transfer.  Its first `put_buffer_id` stores through
the null pointer if there is one. -/
def replayIrq (d : Device) : Device :=
  if !d.listed && !d.play.popDmaFlag then { d with stray := true, served := d.served + 1 }
  else { d with play := jzI2sReplayDmaIrq d.cfg d.play, served := d.served + 1 }

/-- What may happen next while the device is open. -/
inductive DeviceAct where
  | write (count : Nat) (nonblock fault : Bool)
  | writer
  | irq
  | setFragment (val : BitVec 32)
  | rebuild (alloc : Alloc)

/-- One action.  Calls come one after the other; there is one interrupt for each
transfer started. -/
def deviceStep (d : Device) : DeviceAct → Device
  | .write count nonblock fault =>
    if d.play.pc = .idle ∧ d.pending = none then
      { d with play := jzAudioWrite d.cfg count nonblock fault d.play }
    else d
  | .writer => writerTurn d
  | .irq => if d.served < d.play.dmaStarts.length then replayIrq d else d
  | .setFragment val => if d.play.pc = .idle ∧ d.pending = none then setFragment val d else d
  | .rebuild alloc => rebuild alloc d

def deviceRun (d : Device) (acts : List DeviceAct) : Device := acts.foldl deviceStep d

/-- The `bytes` of `SNDCTL_DSP_GETOSPACE`. -/
def getOspace (d : Device) : Nat :=
  let bytes := elementsInQueue d.play.outEmpty * d.cfg.fragsize
  match d.cfg.channels with
  | .stereo => bytes / d.cfg.jzAudioB
  | .mono => bytes / 4

/-- `count_info`, three ints. -/
structure CountInfo where
  bytes : Int
  blocks : Int
  ptr : Int
deriving DecidableEq, Repr

/-- `SNDCTL_DSP_GETOPTR`: what it reports, and the driver's data after it. -/
def getOptr (s : State) : CountInfo × State :=
  ({ bytes := Int.bmod s.totalBytes (2 ^ 32)
     blocks := Int.bmod s.blocks (2 ^ 32)
     ptr := Int.bmod s.nextOut (2 ^ 32) },
   { s with blocks := 0 })

/-- The fragments `attach_jz_i2s` sets up, and those `SETFRAGMENT` accepts. -/
def Config.Fits (cfg : Config) : Prop :=
  (cfg.fragsize = 5 * 4096 ∧ cfg.fragstotal = 4) ∨
    ∃ val, cfg.fragsize = newFragsize val ∧ cfg.fragstotal = newFragstotal val

/-! ### What a write returns -/

/-- The result of `jz_audio_write`, if the writer's next step is its return. -/
def Device.returns (d : Device) : Option Nat :=
  match d.play.pc with
  | .loop c => if c.leftCount > 0 then none else some c.ret
  | .checkEmpty c =>
    if elementsInQueue d.play.outEmpty = 0 ∧ c.nonblock then some c.ret else none
  | _ => none

/-- What happens during a write: a step of it, or an interrupt. -/
inductive Turn where
  | writer
  | irq
deriving DecidableEq, Repr

def Turn.act : Turn → DeviceAct
  | .writer => .writer
  | .irq => .irq

/-- The result of the write that runs, once it has returned. -/
def writeResult (d : Device) : List Turn → Option Nat
  | [] => none
  | .irq :: turns => writeResult (deviceStep d .irq) turns
  | .writer :: turns =>
    match d.returns with
    | some r => some r
    | none => writeResult (deviceStep d .writer) turns

end Dingoo.JzI2s
