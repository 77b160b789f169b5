/-
The playback side of the OSS sound driver (sound/oss/jz_i2s.c): three queues of
fragment ids shared by the writing process and the DMA interrupt.

An id is in `out_empty_queue` while its fragment may be filled, in
`out_full_queue` while it waits to be played and in `out_busy_queue` while it is
played; the writer holds an id between a get and a put.  Each queue operation
runs with interrupts off, the writer as a whole does not, so the writer is cut
into steps at every access to shared data and the interrupt may come between any
two of them.  The interrupt handler is one step: the writer does not run under it.

The words a filler stores are left out.  Nothing the queues do depends on them;
the fillers appear by the data count they record.
-/
import Dingoo.Lib.ArrayQueue
import Mathlib.Algebra.Group.Nat.Defs

namespace Dingoo.JzI2s

/-! ### Formats and fillers -/

/-- The sample formats `jz_audio_set_format` accepts. -/
inductive Format where
  | u8
  | s16le
deriving DecidableEq, Repr

/-- The channel counts `jz_audio_set_channels` accepts. -/
inductive Channels where
  | mono
  | stereo
deriving DecidableEq, Repr

/-- What is fixed while the device is open. -/
structure Config where
  format : Format
  channels : Channels
  /-- `jz_audio_fragsize` -/
  fragsize : Nat
  /-- `jz_audio_fragstotal` -/
  fragstotal : Nat

/-- `jz_audio_b`, as `jz_update_filler` sets it. -/
def Config.jzAudioB (cfg : Config) : Nat :=
  match cfg.format with
  | .u8 => 4
  | .s16le => 2

/-- `cnt` at the end of the loop of an 8 bit filler. -/
def fillLoop8 : Nat → Nat → Nat
  | 0, cnt => cnt
  | count + 1, cnt => fillLoop8 count (cnt + 1)

/-- `cnt` at the end of the loop of a 16 bit filler: an odd last byte counts as two. -/
def fillLoop16 : Nat → Nat → Nat
  | 0, cnt => cnt
  | 1, cnt => cnt + 2
  | count + 2, cnt => fillLoop16 count (cnt + 2)

/-- The data count `replay_filler` records for a fragment filled from `count` bytes. -/
def replayFiller (cfg : Config) (count : Nat) : Nat :=
  match cfg.format, cfg.channels with
  | .u8, .mono => fillLoop8 count 0 * 2 * cfg.jzAudioB       -- replay_fill_1x8_u
  | .u8, .stereo => fillLoop8 count 0 * cfg.jzAudioB         -- replay_fill_2x8_u
  | .s16le, .mono => fillLoop16 count 0 * 2 * cfg.jzAudioB   -- replay_fill_1x16_s
  | .s16le, .stereo => fillLoop16 count 0 * cfg.jzAudioB     -- replay_fill_2x16_s

/-! ### Queues -/

/-- `buffer_queue_t` -/
abbrev Queue := Lib.ArrayQueue Int

/-- `get_buffer_id`: the first id and the queue without it, or `-1`. -/
def getBufferId (q : Queue) : Int × Queue :=
  if q.count = 0 then (-1, q) else (q.slot 0, q.dropFirst)

/-- `put_buffer_id` -/
def putBufferId (q : Queue) (id : Int) : Queue := q.push id

/-- `elements_in_queue` -/
def elementsInQueue (q : Queue) : Nat := q.count

/-! ### The state -/

/-- The locals of one call of `jz_audio_write`. -/
structure Call where
  count : Nat
  nonblock : Bool
  ret : Nat
  leftCount : Int
  copyCount : Nat
deriving DecidableEq, Repr

/-- `if (ret + copy_count > count) copy_count = count - ret;` -/
def Call.clip (c : Call) : Call :=
  if c.ret + c.copyCount > c.count then { c with copyCount := c.count - c.ret } else c

/-- Where the writer is: the step it takes next. -/
inductive Pc where
  /-- outside `jz_audio_write` -/
  | idle
  /-- `while (left_count > 0)` -/
  | loop (c : Call)
  /-- `audio_write_back`: is there an empty fragment? -/
  | checkEmpty (c : Call)
  /-- about to call `sleep_on(&tx_wait_queue)` -/
  | sleepOn (c : Call)
  /-- asleep on `tx_wait_queue` -/
  | sleeping (c : Call)
  | getEmpty (c : Call)
  | fill (c : Call) (id : Int)
  /-- the fragment is filled: put it into the full queue, or back -/
  | put (c : Call) (id : Int)
  | advance (c : Call)
  | checkBusy (c : Call)
  | getFull (c : Call)
  | putBusy (c : Call) (id : Int)
  /-- about to call `audio_start_dma` -/
  | start (c : Call) (id : Int)
  /-- about to set `last_dma_buffer_id` -/
  | started (c : Call) (id : Int)
deriving DecidableEq, Repr

/-- The driver's data for playback, the DMA channel, the writer and two logs. -/
structure State where
  outEmpty : Queue
  outFull : Queue
  outBusy : Queue
  /-- `out_dma_buf_data_count` -/
  dataCount : Int → Nat
  /-- `jz_audio_dma_tran_count` -/
  tranCount : Nat
  totalBytes : Nat
  blocks : Nat
  nextOut : Nat
  popDmaFlag : Bool
  drainFlag : Bool
  lastDmaBufferId : Int
  /-- a started transfer whose end has not been signalled -/
  inFlight : Bool
  pc : Pc
  /-- log: the fragments filled, with their data counts -/
  filled : List (Int × Nat)
  /-- log: the calls of `audio_start_dma`, with their data counts -/
  dmaStarts : List (Int × Nat)

/-! ### The operations -/

/-- `audio_start_dma` on the fragment `id`. -/
def audioStartDma (cfg : Config) (id : Int) (s : State) : State :=
  { s with
    tranCount := s.dataCount id / cfg.jzAudioB
    inFlight := true
    dmaStarts := s.dmaStarts ++ [(id, s.dataCount id)] }

/-- Where a sleeping writer goes on once it is woken: behind `sleep_on`. -/
def Pc.woken : Pc → Pc
  | .sleeping c => .getEmpty c.clip
  | pc => pc

/-- `wake_up(&tx_wait_queue)` -/
def wakeUpTx (s : State) : State := { s with pc := s.pc.woken }

/-- The interrupt's bookkeeping; a drain ends once nothing is left to play. -/
def accountTransfer (s : State) : State :=
  { s with
    drainFlag := s.drainFlag && elementsInQueue s.outFull != 0
    totalBytes := s.totalBytes + s.tranCount
    blocks := s.blocks + 1 }

/-- The interrupt's move of the fragment that was played to the empty queue. -/
def finishBusy (s : State) : State :=
  { s with
    outBusy := (getBufferId s.outBusy).2
    outEmpty := putBufferId s.outEmpty (getBufferId s.outBusy).1 }

/-- The interrupt's start of the next full fragment, if there is one. -/
def startNext (cfg : Config) (s : State) : State :=
  let id := (getBufferId s.outFull).1
  let s := { s with outFull := (getBufferId s.outFull).2 }
  if id ≥ 0 then
    let s := { s with outBusy := putBufferId s.outBusy id }
    if s.dataCount id > 0 then
      { audioStartDma cfg id s with lastDmaBufferId := id }
    else s
  else { s with outBusy := s.outBusy.clear }

/-- `jz_i2s_replay_dma_irq` at the end of a transfer. -/
def jzI2sReplayDmaIrq (cfg : Config) (s : State) : State :=
  let s := { s with inFlight := false }
  if s.popDmaFlag then { s with popDmaFlag := false }
  else
    let s := startNext cfg (finishBusy (accountTransfer s))
    if elementsInQueue s.outEmpty > 0 then wakeUpTx s else s

/-- The entry of `jz_audio_write`, up to the loop; `fault` says that `copy_from_user` fails.
A count of zero returns `-EINVAL` before anything is touched. -/
def jzAudioWrite (cfg : Config) (count : Nat) (nonblock fault : Bool) (s : State) : State :=
  if count = 0 then s
  else if fault then { s with nextOut := 0 }
  else
    { s with
      nextOut := 0
      pc := .loop
        { count := count
          nonblock := nonblock
          ret := 0
          leftCount := Int.bmod count (2 ^ 32)   -- left_count is an int
          copyCount := match cfg.channels with
            | .stereo => cfg.fragsize / cfg.jzAudioB
            | .mono => cfg.fragsize / 4 } }

/-- One step of the loop of `jz_audio_write`. -/
def writerStep (cfg : Config) (s : State) : State :=
  match s.pc with
  | .idle => s
  | .loop c => { s with pc := if c.leftCount > 0 then .checkEmpty c else .idle }
  | .checkEmpty c =>
    if elementsInQueue s.outEmpty = 0 then
      { s with pc := if c.nonblock then .idle else .sleepOn c }
    else { s with pc := .getEmpty c.clip }
  | .sleepOn c => { s with pc := .sleeping c }
  | .sleeping _ => s
  | .getEmpty c =>
    { s with
      outEmpty := (getBufferId s.outEmpty).2
      pc := if (getBufferId s.outEmpty).1 ≥ 0 then .fill c (getBufferId s.outEmpty).1
        else .checkEmpty c }
  | .fill c id =>
    { s with
      dataCount := Function.update s.dataCount id (replayFiller cfg c.copyCount)
      filled := if replayFiller cfg c.copyCount > 0 then
          s.filled ++ [(id, replayFiller cfg c.copyCount)]
        else s.filled
      pc := .put c id }
  | .put c id =>
    if s.dataCount id > 0 then
      { s with outFull := putBufferId s.outFull id, pc := .advance c }
    else { s with outEmpty := putBufferId s.outEmpty id, pc := .advance c }
  | .advance c =>
    { s with
      nextOut := s.nextOut + (c.ret + c.copyCount)
      pc := .checkBusy
        { c with leftCount := c.leftCount - c.copyCount, ret := c.ret + c.copyCount } }
  | .checkBusy c =>
    { s with pc := if elementsInQueue s.outBusy = 0 then .getFull c else .loop c }
  | .getFull c =>
    { s with
      outFull := (getBufferId s.outFull).2
      pc := if (getBufferId s.outFull).1 ≥ 0 then .putBusy c (getBufferId s.outFull).1
        else .loop c }
  | .putBusy c id =>
    { s with
      outBusy := putBufferId s.outBusy id
      pc := if s.dataCount id > 0 then .start c id else .loop c }
  | .start c id => { audioStartDma cfg id s with pc := .started c id }
  | .started c id => { s with lastDmaBufferId := id, pc := .loop c }

/-- `jz_audio_open` for writing, on whatever the driver's data are. -/
def jzAudioOpen (cfg : Config) (s : State) : State :=
  { s with
    popDmaFlag := false
    totalBytes := 0
    tranCount := 0
    blocks := 0
    nextOut := 0
    outEmpty := ⟨cfg.fragstotal, fun i => if i < cfg.fragstotal then i else s.outEmpty.slot i⟩
    outBusy := s.outBusy.clear
    outFull := s.outFull.clear
    lastDmaBufferId := 0
    filled := []
    dmaStarts := [] }

/-! ### Runs -/

/-- What may happen next: a call of `write`, a step of the call that runs, an interrupt. -/
inductive Act where
  | write (count : Nat) (nonblock fault : Bool)
  | writer
  | irq
deriving DecidableEq, Repr

/-- One action.  A call starts only when none runs; the hardware raises the interrupt only
for a transfer in flight. -/
def step (cfg : Config) (s : State) : Act → State
  | .write count nonblock fault =>
    if s.pc = .idle then jzAudioWrite cfg count nonblock fault s else s
  | .writer => writerStep cfg s
  | .irq => if s.inFlight then jzI2sReplayDmaIrq cfg s else s

/-- A whole interleaving. -/
def run (cfg : Config) (s : State) (acts : List Act) : State := acts.foldl (step cfg) s

end Dingoo.JzI2s
