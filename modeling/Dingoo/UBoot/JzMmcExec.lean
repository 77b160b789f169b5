/-
Executing a command in the boot loader, `cpu/mips/jz_mmc.c`: `jz_mmc_exec_cmd` with the
routines it calls, and the decoding of responses.

What the controller shows is given read by read for each command: the status register,
the response FIFO and the receive FIFO.  The loops that have no limit (for the next
word of the data, for the end of the transfer and of programming) read registers until
a flag changes; whether they end is part of what is given, and if they do not the
command has no result.

With `signalCard` the card of `mmc_block_read` is one behind this code: its answer to a
command is what `mmc_unpack_r1` returns after `mmc_send_cmd`, whose own result nobody
looks at.
-/
import Dingoo.UBoot.JzMmc

namespace Dingoo.JzMmc

/-! ### Results and responses -/

/-- `enum mmc_result_t` -/
inductive MmcResult where
  | noResponse
  | noError
  | outOfRange
  | address
  | blockLen
  | eraseSeq
  | eraseParam
  | wpViolation
  | cardIsLocked
  | lockUnlockFailed
  | comCrc
  | illegalCommand
  | cardEccFailed
  | cc
  | general
  | underrun
  | overrun
  | cidCsdOverwrite
  | stateMismatch
  | headerMismatch
  | timeout
  | crc
  | driverFailure
deriving DecidableEq, Repr

/-- The value of a result as an `int`: `MMC_NO_RESPONSE` is -1 and the others follow. -/
def MmcResult.code : MmcResult → Int
  | .noResponse => -1
  | .noError => 0
  | .outOfRange => 1
  | .address => 2
  | .blockLen => 3
  | .eraseSeq => 4
  | .eraseParam => 5
  | .wpViolation => 6
  | .cardIsLocked => 7
  | .lockUnlockFailed => 8
  | .comCrc => 9
  | .illegalCommand => 10
  | .cardEccFailed => 11
  | .cc => 12
  | .general => 13
  | .underrun => 14
  | .overrun => 15
  | .cidCsdOverwrite => 16
  | .stateMismatch => 17
  | .headerMismatch => 18
  | .timeout => 19
  | .crc => 20
  | .driverFailure => 21

/-- `enum mmc_rsp_t` -/
inductive RspType where
  | none
  | r1
  | r1b
  | r2Cid
  | r2Csd
  | r3
  | r4
  | r5
  | r6
deriving DecidableEq, Repr

/-- What a command leaves in its request: `result` and `response`. -/
structure Reply where
  result : MmcResult
  response : List (BitVec 8)
deriving DecidableEq, Repr

/-- `PARSE_U32` -/
def parseU32 (buf : List (BitVec 8)) (i : Nat) : BitVec 32 :=
  buf.getD i 0 ++ buf.getD (i + 1) 0 ++ buf.getD (i + 2) 0 ++ buf.getD (i + 3) 0

/-- The error bits of an R1 status in the order they are looked at. -/
def r1Errors : List (Nat × MmcResult) :=
  [(31, .outOfRange), (30, .address), (29, .blockLen), (28, .eraseSeq), (27, .eraseParam),
    (26, .wpViolation), (24, .lockUnlockFailed), (23, .comCrc), (22, .illegalCommand),
    (21, .cardEccFailed), (20, .cc), (19, .general), (18, .underrun), (17, .overrun),
    (16, .cidCsdOverwrite)]

/-- `mmc_unpack_r1` on the reply to `cmd`. -/
def mmcUnpackR1 (cmd : Int) (r : Reply) : MmcResult :=
  if r.result ≠ .noError then r.result
  else
    let status := parseU32 r.response 1
    match
      if status &&& 0xFFFFE000 ≠ 0 then -- `R1_STATUS`
        r1Errors.find? fun e => status.getLsbD e.1
      else none
    with
    | some e => e.2
    | none => if ((r.response.getD 0 0).toNat : Int) ≠ cmd then .headerMismatch else .noError

/-! ### The controller -/

def statEndCmdRes : BitVec 32 := 1 <<< 11
def statDataFifoAfull : BitVec 32 := 1 <<< 10
def statDataFifoEmpty : BitVec 32 := 1 <<< 6
def statCrcResErr : BitVec 32 := 1 <<< 5
def statCrcReadError : BitVec 32 := 1 <<< 4
def statCrcWriteError : BitVec 32 := 1 <<< 2
def statTimeOutRes : BitVec 32 := 1 <<< 1
def statTimeOutRead : BitVec 32 := 1

/-- What the controller shows while a command runs. -/
structure Signals where
  stat : Nat → BitVec 32
  res : Nat → BitVec 32
  rxfifo : Nat → BitVec 32
  /-- the waits without a limit end -/
  goesOn : Bool

/-- `while (timeout-- && !(REG_MSC_STAT & MSC_STAT_END_CMD_RES))` after `n` reads: the value of
`timeout` when it ends, and the number of reads made. -/
def pollEndCmdRes (stat : Nat → BitVec 32) : Nat → Nat → Int × Nat
  | 0, n => (-1, n)
  | timeout + 1, n =>
    if stat n &&& statEndCmdRes ≠ 0 then (timeout, n + 1)
    else pollEndCmdRes stat timeout (n + 1)

/-- `jz_mmc_check_status` -/
def jzMmcCheckStatus (status : BitVec 32) : MmcResult :=
  if status &&& (statTimeOutRes ||| statTimeOutRead) ≠ 0 then .timeout
  else if status &&& (statCrcReadError ||| statCrcWriteError ||| statCrcResErr) ≠ 0 then .crc
  else .noError

/-- Two bytes of the response FIFO. -/
def resBytes (data : BitVec 32) : List (BitVec 8) :=
  [data.extractLsb' 8 8, data.extractLsb' 0 8]

/-- `jz_mmc_get_response`: the bytes stored in the response buffer. -/
def jzMmcGetResponse (rtype : RspType) (res : Nat → BitVec 32) : List (BitVec 8) :=
  match rtype with
  | .r1 | .r1b | .r6 | .r3 | .r4 | .r5 =>
    resBytes (res 0) ++ resBytes (res 1) ++ [(res 2).extractLsb' 0 8]
  | .r2Cid | .r2Csd => (List.range 8).flatMap fun i => resBytes (res i)
  | .none => []

/-- The first loop of `jz_mmc_receive_data`: the wait for data, after `n` reads. -/
def waitData (stat : Nat → BitVec 32) : Nat → Nat → MmcResult
  | 0, _ => .timeout
  | timeout + 1, n =>
    if stat n &&& statTimeOutRead ≠ 0 then .timeout
    else if stat n &&& statCrcReadError ≠ 0 then .crc
    else if stat n &&& statDataFifoEmpty = 0 ∨ stat n &&& statDataFifoAfull ≠ 0 then
      -- `if (!timeout)` is also true when the loop is left in its last turn
      if timeout = 0 then .timeout else .noError
    else waitData stat timeout (n + 1)

/-- The bytes of a word of the receive FIFO. -/
def rxBytes (data : BitVec 32) : List UInt8 :=
  [⟨data.extractLsb' 0 8⟩, ⟨data.extractLsb' 8 8⟩, ⟨data.extractLsb' 16 8⟩,
    ⟨data.extractLsb' 24 8⟩]

/-- `jz_mmc_receive_data` after `n` reads of the status: its result, and the bytes it stores. -/
def jzMmcReceiveData (sig : Signals) (n blockLen : Nat) : MmcResult × List UInt8 :=
  match waitData sig.stat 0x3ffffff n with
  | .noError =>
    (.noError, (List.range ((blockLen + 3) / 4)).flatMap fun i => rxBytes (sig.rxfifo i))
  | r => (r, [])

/-! ### Executing a command -/

/-- The commands with `MMC_EVENT_RX_DATA_DONE`. -/
def receives (cmd : Int) : Bool := cmd = 11 ∨ cmd = 17 ∨ cmd = 18 ∨ cmd = 51

/-- The commands with `MMC_EVENT_TX_DATA_DONE` or `MMC_EVENT_PROG_DONE`. -/
def programs (cmd : Int) : Bool :=
  cmd = 12 ∨ cmd = 20 ∨ cmd = 24 ∨ cmd = 25 ∨ cmd = 26 ∨ cmd = 27 ∨ cmd = 30 ∨ cmd = 42 ∨ cmd = 56

/-- What `jz_mmc_exec_cmd` does. -/
structure Executed where
  /-- the value it returns -/
  retval : MmcResult
  reply : Reply
  /-- the result of `jz_mmc_receive_data`, if it is called -/
  received : Option MmcResult
  /-- the bytes stored at `request->buffer` -/
  bytes : List UInt8
deriving DecidableEq

/-- The end of `jz_mmc_exec_cmd` for a command without a response, or without a good one:
`request->result` is still `MMC_NO_RESPONSE`. -/
def Executed.noReply (retval : MmcResult) : Executed := ⟨retval, ⟨.noResponse, []⟩, none, []⟩

/-- The data phase, after `n` reads of the status. -/
def dataPhase (sig : Signals) (cmd : Int) (blockLen n : Nat) (response : List (BitVec 8)) :
    Option Executed :=
  if (receives cmd ∨ programs cmd) ∧ !sig.goesOn then none
  else if receives cmd then
    let (received, bytes) := jzMmcReceiveData sig n blockLen
    if cmd = 51 then -- `SEND_SCR`: the data go behind the response
      some ⟨.noError, ⟨.noError, response.take 5 ++ bytes.map UInt8.toBitVec⟩, received, []⟩
    else some ⟨.noError, ⟨.noError, response⟩, received, bytes⟩
  else some ⟨.noError, ⟨.noError, response⟩, none, []⟩

/-- `jz_mmc_exec_cmd` -/
def jzMmcExecCmd (sig : Signals) (cmd : Int) (rtype : RspType) (blockLen : Nat) :
    Option Executed :=
  let (timeout, n) := pollEndCmdRes sig.stat 0x3fffff 0
  if timeout = 0 then some (.noReply .timeout)
  else if jzMmcCheckStatus (sig.stat n) ≠ .noError then
    some (.noReply (jzMmcCheckStatus (sig.stat n)))
  else if rtype = .none then some (.noReply .noError)
  else dataPhase sig cmd blockLen (n + 1) (jzMmcGetResponse rtype sig.res)

/-! ### The card behind it -/

/-- A command of `mmc_block_read`: all have an R1 response, and only the read has data. -/
def sendCmd (sig : Signals) (c : Cmd) : Option Executed :=
  jzMmcExecCmd sig c.cmd .r1 (if c.cmd = 17 then 512 else 0)

/-- The card that gives these signals to the first command, the second, and so on. -/
def signalCard (sig : Nat → Signals) (content : Nat → UInt8) (sd20 : Bool) (rca : BitVec 32) :
    Card where
  content := content
  sd20 := sd20
  rca := rca
  answer sent :=
    match sent.getLast? with
    | none => (0, [])
    | some c =>
      match sendCmd (sig (sent.length - 1)) c with
      | none => (0, [])
      | some x => ((mmcUnpackR1 c.cmd x.reply).code, x.bytes)

/-- A way of reading one block, with a log of the values returned. -/
def logged {σ : Type} (blockRead : BlockRead σ) : BlockRead (σ × List Int) :=
  fun dev src len =>
    let r := blockRead dev.1 src len
    ((r.1, dev.2 ++ [r.2.1]), r.2)

/-- A card in use, and what the driver holds before a call. -/
structure Session where
  sig : Nat → Signals
  content : Nat → UInt8
  sd20 : Bool
  rca : BitVec 32
  mmcReady : Bool
  mmcBuf : List UInt8

namespace Session

/-- Before a call nothing is sent, logged or stored. -/
def start (s : Session) : Run (List Cmd × List Int) := ⟨([], []), s.mmcBuf, fun _ => none⟩

def blockRead (s : Session) : BlockRead (List Cmd) :=
  mmcBlockRead (signalCard s.sig s.content s.sd20 s.rca)

/-- `mmc_read`: the value it returns, the commands it sends and the values its block reads
return. -/
def mmcRead (s : Session) (src size : BitVec 32) : Option (Int × List Cmd × List Int) :=
  (JzMmc.mmcRead (logged s.blockRead) s.mmcReady s.start src size).map fun r => (r.1, r.2.dev)

/-- `mmc_bread`, in the same way. -/
def mmcBread (s : Session) (blknr blkcnt : BitVec 32) :
    Option (BitVec 32 × List Cmd × List Int) :=
  (JzMmc.mmcBread (logged s.blockRead) s.mmcReady s.start blknr blkcnt).map
    fun r => (r.1, r.2.dev)

end Session

end Dingoo.JzMmc
