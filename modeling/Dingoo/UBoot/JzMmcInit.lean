/-
Initialising the card in the boot loader, `cpu/mips/jz_mmc.c`: the state machine
`mmc_init_card_state` and the loop of `mmc_init_card` around it.

The machine is driven by the last command sent, `request->cmd`: each call decodes the
reply to it and sends the next one.  What the card replies is given, command by
command.  Of the CID and the CSD only what steers the machine or `mmc_block_read` is
kept.  The limit on `SD_SEND_OP_COND` is a local variable of the machine, and so
starts at zero in every call.
-/
import Dingoo.UBoot.JzMmcExec

namespace Dingoo.JzMmc

/-! ### The other responses -/

/-- `MMC_CARD_BUSY` -/
def mmcCardBusy : BitVec 32 := 0x80000000

/-- `MMC_OCR_ARG` -/
def mmcOcrArg : BitVec 32 := 0x00ff8000

/-- The decoding of a response that starts with 0x3f. -/
def unpackReserved (r : Reply) : MmcResult :=
  if r.result ≠ .noError then r.result
  else if r.response.getD 0 0 ≠ 0x3f then .headerMismatch
  else .noError

/-- `mmc_unpack_r3`, and the OCR. -/
def mmcUnpackR3 (r : Reply) : MmcResult × BitVec 32 := (unpackReserved r, parseU32 r.response 1)

/-- `mmc_unpack_cid` -/
def mmcUnpackCid (r : Reply) : MmcResult := unpackReserved r

/-- `mmc_unpack_csd`, and whether the CSD has the structure of an SD 2.0 card; that is
decoded if there is a response at all. -/
def mmcUnpackCsd (r : Reply) : MmcResult × Option Bool :=
  (unpackReserved r,
    if r.result ≠ .noError then none else some (r.response.getD 1 0 &&& 0xc0 ≠ 0))

/-- `mmc_unpack_r6`: its result, and the address if there is a response. -/
def mmcUnpackR6 (cmd : Int) (r : Reply) : MmcResult × Option (BitVec 32) :=
  if r.result ≠ .noError then (r.result, none)
  else
    (mmcUnpackR1 cmd { r with response := (r.response.set 1 0).set 2 0 },
      some ((r.response.getD 1 0 ++ r.response.getD 2 0).setWidth 32))

/-! ### The machine -/

/-- `enum card_state` -/
inductive CardState where
  | empty
  | idle
  | ready
  | ident
  | stby
  | tran
  | data
  | rcv
  | prg
  | dis
deriving DecidableEq, Repr

/-- What `mmc_simple_cmd` is called with. -/
structure SimpleCmd where
  cmd : Int
  arg : BitVec 32
  rtype : RspType
deriving DecidableEq, Repr

/-- The request, `mmcinfo`, the other variables set, and a log of the commands sent. -/
structure InitState where
  cmd : Int
  reply : Reply
  id : BitVec 32
  sd : Bool
  rca : BitVec 32
  state : CardState
  sd20 : Bool
  mmcReady : Bool
  sent : List SimpleCmd
deriving DecidableEq

/-- `mmc_simple_cmd`; the replies are numbered as the commands are. -/
def mmcSimpleCmd (replies : Nat → Reply) (cmd : Int) (arg : BitVec 32) (rtype : RspType)
    (s : InitState) : InitState :=
  { s with cmd := cmd, reply := replies s.sent.length, sent := s.sent ++ [⟨cmd, arg, rtype⟩] }

/-- `MMC_INIT_DOING`, `MMC_INIT_PASSED` and `MMC_INIT_FAILED`, and a call that does not return. -/
inductive Init where
  | doing
  | passed
  | failed
  | fault
deriving DecidableEq, Repr

/-- `ID_TO_RCA(mmcinfo.id) << 16` -/
def idToRca (id : BitVec 32) : BitVec 32 := (id + 1) <<< 16

/-- The case `MMC_APP_CMD`. -/
def appCmd (replies : Nat → Reply) (s : InitState) : InitState :=
  let ocr : BitVec 32 := 0x40300000
  let limit41 := 0
  -- `retval & (limit_41 < 100)`
  if (mmcUnpackR1 s.cmd s.reply).code % 2 ≠ 0 ∧ limit41 < 100 then
    mmcSimpleCmd replies 41 ocr .r3 s
  else if limit41 < 100 then mmcSimpleCmd replies 41 ocr .r3 s
  else { mmcSimpleCmd replies 0 0 .none s with sd := false }

/-- The case `SD_SEND_OP_COND`. -/
def sdSendOpCond (replies : Nat → Reply) (s : InitState) : InitState :=
  let (retval, ocr) := mmcUnpackR3 s.reply
  if retval ≠ .noError then mmcSimpleCmd replies 1 mmcOcrArg .r3 s
  else if ocr &&& mmcCardBusy = 0 then mmcSimpleCmd replies 55 0 .r1 s
  else mmcSimpleCmd replies 2 0 .r2Cid { s with sd := true, state := .ready }

/-- The case `MMC_SEND_OP_COND`. -/
def mmcSendOpCond (replies : Nat → Reply) (s : InitState) : Init × InitState :=
  let (retval, ocr) := mmcUnpackR3 s.reply
  if retval ≠ .noError then (.failed, s)
  else if ocr &&& mmcCardBusy = 0 then (.doing, mmcSimpleCmd replies 1 mmcOcrArg .r3 s)
  else (.doing, mmcSimpleCmd replies 2 0 .r2Cid { s with sd := false, state := .ready })

/-- The case `MMC_ALL_SEND_CID`; a CRC error is ignored. -/
def allSendCid (replies : Nat → Reply) (s : InitState) : Init × InitState :=
  let retval := mmcUnpackCid s.reply
  if retval ≠ .noError ∧ retval ≠ .crc then (.failed, s)
  else
    let s := { s with state := .ident }
    if s.sd then (.doing, mmcSimpleCmd replies 3 0 .r6 s)
    else (.doing, mmcSimpleCmd replies 3 (idToRca s.id) .r1 s)

/-- The case `MMC_SET_RELATIVE_ADDR`. -/
def setRelativeAddr (replies : Nat → Reply) (s : InitState) : Init × InitState :=
  let (retval, rca) :=
    if s.sd then
      let (retval, rca) := mmcUnpackR6 s.cmd s.reply
      (retval, rca.getD s.rca <<< 16)
    else (mmcUnpackR1 s.cmd s.reply, idToRca s.id)
  let s := { s with rca := rca }
  if retval ≠ .noError then (.failed, s)
  else (.doing, mmcSimpleCmd replies 9 s.rca .r2Csd { s with state := .stby })

/-- `memcpy(&mmc_csd, csd, sizeof(csd))` can read four bytes at the address `retval`.  With
`ST0_ERL` set, as start.S leaves it, the low addresses are not mapped; -1 is. -/
def readable (retval : MmcResult) : Bool := 0 ≤ retval.code

/-- The case `MMC_SEND_CSD`; a CRC error is ignored.  The result is taken for the address of the
CSD; nothing uses the copy. -/
def sendCsd (s : InitState) : Init × InitState :=
  let (retval, sd20) := mmcUnpackCsd s.reply
  let s := { s with sd20 := sd20.getD s.sd20 }
  if !readable retval then (.fault, s)
  else
    let s := { s with mmcReady := true }
    if retval ≠ .noError ∧ retval ≠ .crc then (.failed, s) else (.passed, s)

/-- `mmc_init_card_state` -/
def mmcInitCardState (replies : Nat → Reply) (s : InitState) : Init × InitState :=
  if s.cmd = 0 then -- `MMC_GO_IDLE_STATE`
    (.doing, if s.sd then mmcSimpleCmd replies 8 0x1aa .r1 s
      else mmcSimpleCmd replies 1 mmcOcrArg .r3 s)
  else if s.cmd = 8 then (.doing, mmcSimpleCmd replies 55 0 .r1 s)
  else if s.cmd = 55 then (.doing, appCmd replies s)
  else if s.cmd = 41 then (.doing, sdSendOpCond replies s)
  else if s.cmd = 1 then mmcSendOpCond replies s
  else if s.cmd = 2 then allSendCid replies s
  else if s.cmd = 3 then setRelativeAddr replies s
  else if s.cmd = 9 then sendCsd s
  else (.failed, s)

/-- The loop of `mmc_init_card`, for at most `fuel` turns: the value returned and the state.  A
call that does not return leaves it without one. -/
def initLoop (replies : Nat → Reply) : Nat → InitState → Option (Int × InitState)
  | 0, _ => none
  | fuel + 1, s =>
    match mmcInitCardState replies s with
    | (.doing, s) => initLoop replies fuel s
    | (.passed, s) => some (MmcResult.noError.code, s)
    | (.failed, s) => some (MmcResult.noResponse.code, s)
    | (.fault, _) => none

/-- `mmc_init_card`; `MMC_CIM_RESET` is -1. -/
def mmcInitCard (replies : Nat → Reply) (fuel : Nat) (s : InitState) : Option (Int × InitState) :=
  let s := mmcSimpleCmd replies (-1) 0 .none { s with sent := [] }
  let s := mmcSimpleCmd replies 0 0 .none s
  initLoop replies fuel { s with sd := true }

end Dingoo.JzMmc
