/-
The recording side of the OSS sound driver (sound/oss/jz_i2s.c): the queues
`in_empty_queue`, `in_full_queue` and `in_busy_queue`, shared by the reading process
and the DMA interrupt, and the fragments behind them.

The reader is cut into steps as the writer of the playback side is, at every access
to shared data.  The words of a fragment are in the state: the channel fills the
fragment it was started with, and what it fills it with comes from outside, as the
words of the first, the second, the third transfer and so on.

`tmp2`, the buffer the samples are converted into, is taken to be large enough.
-/
import Dingoo.Linux.JzI2sIoctl

namespace Dingoo.JzI2sRecord

open Dingoo.JzI2s

/-! ### Fillers -/

/-- `*(dp ++) = (d << 16) >> 16` -/
def halfword (d : BitVec 32) : List (BitVec 8) := [d.extractLsb' 0 8, d.extractLsb' 8 8]

/-- `*(dp ++) = ((d << 16) >> 24) + 0x80` -/
def byte (d : BitVec 32) : BitVec 8 := d.extractLsb' 8 8 + 0x80

/-- The bytes a filler makes of one pair of words, left and right. -/
def samples (cfg : Config) (d1 d2 : BitVec 32) : List (BitVec 8) :=
  match cfg.format, cfg.channels with
  | .u8, .mono => [byte d1]                          -- record_fill_1x8_u
  | .u8, .stereo => [byte d1, byte d2]               -- record_fill_2x8_u
  | .s16le, .mono => halfword d1                     -- record_fill_1x16_s
  | .s16le, .stereo => halfword d1 ++ halfword d2    -- record_fill_2x16_s

/-- Only `record_fill_2x16_s` looks at `abnormal_data_count`. -/
def muffles (cfg : Config) (abnormal : Nat) : Bool :=
  match cfg.format, cfg.channels with
  | .s16le, .stereo => decide (abnormal > 0)
  | _, _ => false

/-- One turn of a filler: the bytes, and `abnormal_data_count`. -/
def fillPair (cfg : Config) (d1 d2 : BitVec 32) (abnormal : Nat) : List (BitVec 8) × Nat :=
  if muffles cfg abnormal then (samples cfg 0 0, abnormal - 1) else (samples cfg d1 d2, abnormal)

/-- The loop of a filler from word `i` on; each turn takes two words off `count`. -/
def fillLoop (cfg : Config) (s : Nat → BitVec 32) : Nat → Nat → Nat → List (BitVec 8) × Nat
  | 0, _, abnormal => ([], abnormal)
  | 1, i, abnormal => fillPair cfg (s i) (s (i + 1)) abnormal
  | count + 2, i, abnormal =>
    let pair := fillPair cfg (s i) (s (i + 1)) abnormal
    let rest := fillLoop cfg s count (i + 2) pair.2
    (pair.1 ++ rest.1, rest.2)

/-- `record_filler` on the words of a fragment. -/
def recordFiller (cfg : Config) (s : Nat → BitVec 32) (count abnormal : Nat) :
    List (BitVec 8) × Nat :=
  fillLoop cfg s count 0 abnormal

/-! ### The state -/

/-- The locals of one call of `jz_audio_read`. -/
structure Call where
  count : Nat
  nonblock : Bool
  ret : Nat
  leftCount : Int
  cnt : Nat
deriving DecidableEq, Repr

/-- Where the reader is: the step it takes next. -/
inductive Pc where
  /-- outside `jz_audio_read` -/
  | idle
  /-- `audio_read_back_first`: get a fragment for the first transfer -/
  | firstGet (c : Call)
  | firstPut (c : Call) (id : Int)
  | firstStart (c : Call) (id : Int)
  | firstSleepOn (c : Call)
  | firstSleeping (c : Call)
  /-- `while (left_count > 0)` -/
  | loop (c : Call)
  /-- `audio_read_back_second`: is there a full fragment? -/
  | checkFull (c : Call)
  | sleepOn (c : Call)
  | sleeping (c : Call)
  | getFull (c : Call)
  /-- about to call the filler -/
  | convert (c : Call) (id : Int)
  | putEmpty (c : Call) (id : Int)
  | checkBusy (c : Call)
  | getEmpty (c : Call)
  | putBusy (c : Call) (id : Int)
  | start (c : Call) (id : Int)
  /-- about to call `copy_to_user` -/
  | copyOut (c : Call)
deriving DecidableEq, Repr

/-- The driver's data for recording, the DMA channel, the reader and three logs. -/
structure State where
  inEmpty : Queue
  inFull : Queue
  inBusy : Queue
  /-- `in_dma_buf_data_count` -/
  dataCount : Int → Nat
  /-- the words behind `in_dma_buf` -/
  words : Int → Nat → BitVec 32
  firstRecordCall : Bool
  abnormalDataCount : Nat
  tranCount : Nat
  totalBytes : Nat
  blocks : Nat
  nextIn : Nat
  /-- the fragment of the transfer in flight -/
  target : Option Int
  pc : Pc
  /-- what the filler has left at `tmp2 + ret` -/
  tmp2 : List (BitVec 8)
  /-- log: the fragments the channel has filled, in order -/
  recorded : List (Nat → BitVec 32)
  /-- log: the number of fragments taken from the full queue -/
  taken : Nat
  /-- log: the bytes returned to the user -/
  returned : List (BitVec 8)

/-- `copy_count` -/
def copyCount (cfg : Config) : Nat := cfg.fragsize / 4

/-! ### The operations -/

/-- `audio_start_dma` on the fragment `id`. -/
def audioStartDma (cfg : Config) (id : Int) (s : State) : State :=
  { s with tranCount := s.dataCount id / cfg.jzAudioB, target := some id }

/-- Where a sleeping reader goes on once it is woken. -/
def Pc.woken : Pc → Pc
  | .firstSleeping c => .loop c
  | .sleeping c => .getFull c
  | pc => pc

/-- The words of the fragment `id` once `w` has been transferred into it. -/
def filledWords (id : Int) (w : Nat → BitVec 32) (s : State) : Nat → BitVec 32 :=
  fun i => if i < s.dataCount id / 4 then w i else s.words id i

/-- The end of the transfer: the channel has stored its words in the fragment. -/
def transferDone (id : Int) (w : Nat → BitVec 32) (s : State) : State :=
  { s with
    words := Function.update s.words id (filledWords id w s)
    recorded := s.recorded ++ [filledWords id w s]
    target := none }

/-- The interrupt's move of the fragment that was filled to the full queue. -/
def finishBusy (s : State) : State :=
  { s with
    totalBytes := s.totalBytes + s.tranCount
    blocks := s.blocks + 1
    inBusy := (getBufferId s.inBusy).2
    inFull := putBufferId s.inFull (getBufferId s.inBusy).1 }

/-- `wake_up(&rx_wait_queue)` -/
def wakeUpRx (s : State) : State := { s with pc := s.pc.woken }

/-- The interrupt's start of the next empty fragment; `id1` is the one that was filled. -/
def startNext (cfg : Config) (id1 : Int) (s : State) : State :=
  let id2 := (getBufferId s.inEmpty).1
  let s := { s with inEmpty := (getBufferId s.inEmpty).2 }
  if id2 ≥ 0 then
    audioStartDma cfg id2 { s with
      inBusy := putBufferId s.inBusy id2
      dataCount := Function.update s.dataCount id2 (s.dataCount id1) }
  else { s with inBusy := s.inBusy.clear }

/-- `jz_i2s_record_dma_irq` at the end of a transfer. -/
def jzI2sRecordDmaIrq (cfg : Config) (s : State) : State :=
  startNext cfg (getBufferId s.inBusy).1 (wakeUpRx (finishBusy s))

/-- The entry of `jz_audio_read`, up to its first access to a queue. -/
def jzAudioRead (count : Nat) (nonblock : Bool) (s : State) : State :=
  let c : Call := ⟨count, nonblock, 0, Int.bmod count (2 ^ 32), 0⟩   -- left_count is an int
  { s with
    nextIn := 0
    firstRecordCall := false
    pc := if s.firstRecordCall then .firstGet c else .loop c }

/-- `if (ret + cnt > count) cnt = count - ret;` -/
def Call.clip (c : Call) : Call :=
  if c.ret + c.cnt > c.count then { c with cnt := c.count - c.ret } else c

/-- One step of `jz_audio_read`; `fault` says that `copy_to_user` fails. -/
def readerStep (cfg : Config) (fault : Bool) (s : State) : State :=
  match s.pc with
  | .idle => s
  | .firstGet c =>
    { s with
      inEmpty := (getBufferId s.inEmpty).2
      pc := if (getBufferId s.inEmpty).1 ≥ 0 then .firstPut c (getBufferId s.inEmpty).1
        else .firstGet c }
  | .firstPut c id => { s with inBusy := putBufferId s.inBusy id, pc := .firstStart c id }
  | .firstStart c id =>
    { audioStartDma cfg id { s with
        dataCount := Function.update s.dataCount id (copyCount cfg * 4) } with
      pc := .firstSleepOn c }
  | .firstSleepOn c => { s with pc := .firstSleeping c }
  | .firstSleeping _ => s
  | .loop c => { s with pc := if c.leftCount > 0 then .checkFull c else .idle }
  | .checkFull c =>
    { s with pc :=
        if elementsInQueue s.inFull = 0 then (if c.nonblock then .idle else .sleepOn c)
        else .getFull c }
  | .sleepOn c => { s with pc := .sleeping c }
  | .sleeping _ => s
  | .getFull c =>
    { s with
      inFull := (getBufferId s.inFull).2
      taken := if (getBufferId s.inFull).1 ≥ 0 then s.taken + 1 else s.taken
      pc := if (getBufferId s.inFull).1 ≥ 0 then .convert c (getBufferId s.inFull).1
        else .checkFull c }
  | .convert c id =>
    { s with
      tmp2 := (recordFiller cfg (s.words id) (copyCount cfg) s.abnormalDataCount).1
      abnormalDataCount :=
        (recordFiller cfg (s.words id) (copyCount cfg) s.abnormalDataCount).2
      pc := .putEmpty { c with cnt :=
        (recordFiller cfg (s.words id) (copyCount cfg) s.abnormalDataCount).1.length } id }
  | .putEmpty c id => { s with inEmpty := putBufferId s.inEmpty id, pc := .checkBusy c }
  | .checkBusy c =>
    { s with pc := if elementsInQueue s.inBusy = 0 then .getEmpty c else .copyOut c }
  | .getEmpty c =>
    { s with
      inEmpty := (getBufferId s.inEmpty).2
      pc := if (getBufferId s.inEmpty).1 ≥ 0 then .putBusy c (getBufferId s.inEmpty).1
        else .copyOut c }
  | .putBusy c id => { s with inBusy := putBufferId s.inBusy id, pc := .start c id }
  | .start c id =>
    { audioStartDma cfg id { s with
        dataCount := Function.update s.dataCount id (copyCount cfg * 4) } with
      pc := .copyOut c }
  | .copyOut c =>
    if fault then { s with pc := .idle }
    else
      { s with
        returned := s.returned ++ s.tmp2.take c.clip.cnt
        nextIn := s.nextIn + (c.ret + c.clip.cnt)
        pc := .loop { c.clip with
          ret := c.ret + c.clip.cnt
          leftCount := c.leftCount - c.clip.cnt } }

/-- `jz_audio_open` for reading, on whatever the driver's data are. -/
def jzAudioOpen (cfg : Config) (s : State) : State :=
  { s with
    firstRecordCall := true
    abnormalDataCount := 0
    totalBytes := 0
    tranCount := 0
    blocks := 0
    nextIn := 0
    inEmpty := ⟨cfg.fragstotal, fun i => if i < cfg.fragstotal then i else s.inEmpty.slot i⟩
    inFull := s.inFull.clear
    inBusy := s.inBusy.clear
    recorded := []
    taken := 0
    returned := [] }

/-! ### Runs -/

/-- What may happen next: a call of `read`, a step of the call that runs, an interrupt. -/
inductive Act where
  | read (count : Nat) (nonblock : Bool)
  | reader (fault : Bool)
  | irq
deriving DecidableEq, Repr

/-- One action.  `mic` is what there is to record: the words of each transfer.  The
interrupt is raised only for a transfer in flight. -/
def step (cfg : Config) (mic : Nat → Nat → BitVec 32) (s : State) : Act → State
  | .read count nonblock => if s.pc = .idle then jzAudioRead count nonblock s else s
  | .reader fault => readerStep cfg fault s
  | .irq =>
    match s.target with
    | some id => jzI2sRecordDmaIrq cfg (transferDone id (mic s.recorded.length) s)
    | none => s

/-- A whole interleaving. -/
def run (cfg : Config) (mic : Nat → Nat → BitVec 32) (s : State) (acts : List Act) : State :=
  acts.foldl (step cfg mic) s

/-- A fragment as the user gets it: the filler's bytes for its words. -/
def converted (cfg : Config) (words : Nat → BitVec 32) : List (BitVec 8) :=
  (recordFiller cfg words (copyCount cfg) 0).1

/-- All fragments recorded, converted, one after the other. -/
def stream (cfg : Config) (recorded : List (Nat → BitVec 32)) : List (BitVec 8) :=
  recorded.flatMap (converted cfg)

end Dingoo.JzI2sRecord
