/-
The request machine of the kernel's MMC host driver (`drivers/mmc/host/jz_mmc.c`).

A request is a command, possibly with data and a stop command.  `jz_mmc_request`
sends the command and waits for its end; a request with data then stays open until
the data-transfer-done interrupt, which sends the stop command if there is one.

Requests are numbered in the order they are issued, and a pointer to one, or to its
command, data or stop command, is that number.  What the card and the controller
answer, and whether a card is present, are arguments.  An interrupt may come at any
point of the process-level code: each `window` is such a point, and takes the
interrupt if there is one and it is not masked.  While the handler runs its own line
is blocked.

The configuration is that of the A320: `USE_DMA` and `CONFIG_JZ_MMC_BUS_1`.  The
clock is not part of the state.  The set-up and the unmapping of the buffers are
parameters of the functions (`Ops`): the request machine only notes a set-up.
-/
import Mathlib.Data.BitVec
import Mathlib.Tactic.Simps.Basic

namespace Dingoo.MmcHost

/-! ### Requests -/

/-- There are words of a response, so that a number names one. -/
scoped instance neZeroWords : NeZero 4 := ⟨by decide⟩

/-- `struct mmc_command` -/
structure Command where
  opcode : BitVec 32
  arg : BitVec 32
  flags : BitVec 32
  resp : Fin 4 → BitVec 32
  error : Int
deriving DecidableEq

/-- `struct mmc_data` -/
structure Data where
  blksz : BitVec 32
  blocks : BitVec 32
  flags : BitVec 32
  error : Int
  bytesXfered : BitVec 32
deriving DecidableEq

/-- `struct mmc_request` -/
structure Request where
  cmd : Command
  data : Option Data
  stop : Option Command
deriving DecidableEq

/-- A pointer to the command or to the stop command of a request. -/
inductive CmdPtr where
  | cmd (mrq : Nat)
  | stop (mrq : Nat)
deriving DecidableEq, Repr

def ETIMEDOUT : Int := 145

def EILSEQ : Int := 88

/-! ### The state -/

inductive Event where
  /-- a command sent: its flags, and what the registers `CMD`, `ARG` and `CMDAT` hold -/
  | send (flags opcode arg cmdat : BitVec 32)
  /-- a response taken: the flags of the command, the format used, the number of words read
  from the response FIFO, and `cmd->resp` before and after -/
  | response (flags : BitVec 32) (format words : Nat) (before after : Fin 4 → BitVec 32)
  /-- a transfer set up for the data of a request -/
  | rxSetup (data : Nat)
  | txSetup (data : Option Nat)
  /-- `mmc_request_done` -/
  | done (mrq : Option Nat)
deriving DecidableEq

structure State where
  /-- the requests issued so far -/
  reqs : List Request
  /-- `host->mrq`, `host->cmd` and `host->data` -/
  mrq : Option Nat
  cmd : Option CmdPtr
  data : Option Nat
  /-- `host->imask`; only the eight bits of the register count -/
  imask : BitVec 8
  /-- `host->cmdat` -/
  cmdat : BitVec 32
  /-- the file-level variable `r_type` -/
  rType : Nat
  /-- `REG_MSC_IMASK` and `REG_MSC_ARG` -/
  regImask : BitVec 8
  regArg : BitVec 32
  log : List Event

abbrev M := StateM State

/-- What the controller shows while a command runs: the card-present flag, the status, and the
words of the response FIFO. -/
structure CmdEnv where
  slotEnable : Bool
  stat : BitVec 32
  res : Nat → BitVec 32

/-- What the controller shows to the interrupt handler: `IREG`, the status when it starts and
when the data is checked, and the environment of the stop command. -/
structure IrqEnv where
  ireg : BitVec 8
  stat : BitVec 32
  dataStat : BitVec 32
  stop : CmdEnv

namespace State

/-- The command a pointer points to. -/
def command (s : State) : CmdPtr → Option Command
  | .cmd i => s.reqs[i]?.map Request.cmd
  | .stop i => s.reqs[i]?.bind Request.stop

def modifyCommand (s : State) (p : CmdPtr) (f : Command → Command) : State :=
  { s with reqs := match p with
    | .cmd i => s.reqs.modify i fun r => { r with cmd := f r.cmd }
    | .stop i => s.reqs.modify i fun r => { r with stop := r.stop.map f } }

def modifyData (s : State) (i : Nat) (f : Data → Data) : State :=
  { s with reqs := s.reqs.modify i fun r => { r with data := r.data.map f } }

def record (s : State) (e : Event) : State := { s with log := s.log ++ [e] }

end State

/-! ### Flags and registers -/

/-- `mmc_resp_type` without the busy and opcode bits (`RSP_TYPE`). -/
def rspType (flags : BitVec 32) : BitVec 32 := flags &&& 0x1f &&& ~~~0x18

/-- `RSP_TYPE` of `MMC_RSP_R1`, `MMC_RSP_R3` and `MMC_RSP_R2` -/
def rspR1 : BitVec 32 := 5
def rspR3 : BitVec 32 := 1
def rspR2 : BitVec 32 := 7

def mmcRspCrc : BitVec 32 := 4
def mmcRspBusy : BitVec 32 := 8
def mmcDataWrite : BitVec 32 := 1 <<< 8
def mmcDataStream : BitVec 32 := 1 <<< 10
def cmdatBusWidth4 : BitVec 32 := 2 <<< 9
def cmdatDmaEn : BitVec 32 := 1 <<< 8
def cmdatInit : BitVec 32 := 1 <<< 7
def cmdatBusy : BitVec 32 := 1 <<< 6
def cmdatStreamBlock : BitVec 32 := 1 <<< 5
def cmdatWrite : BitVec 32 := 1 <<< 4
def cmdatDataEn : BitVec 32 := 1 <<< 3
def statCrcResErr : BitVec 32 := 1 <<< 5
def statCrcReadError : BitVec 32 := 1 <<< 4
def statCrcWriteError : BitVec 32 := 1 <<< 2
def statTimeOutRes : BitVec 32 := 1 <<< 1
def statTimeOutRead : BitVec 32 := 1
/-- `MSC_IMASK_DATA_TRAN_DONE` and `MSC_IREG_DATA_TRAN_DONE` -/
def dataTranDone : BitVec 8 := 1
/-- the opcode of `SD_IO_SEND_OP_COND` -/
def sdIoSendOpCond : BitVec 32 := 5

/-- `MMC_WRITE_BLOCK` or `MMC_WRITE_MULTIPLE_BLOCK` -/
def isWrite (opcode : BitVec 32) : Bool := opcode = 24 ∨ opcode = 25

/-! ### The response -/

/-- The four words of a long response, from the nine words of the FIFO. -/
def longResponse (res : Nat → BitVec 32) (i : Fin 4) : BitVec 32 :=
  (res (2 * i) &&& 0xffff) <<< 24 ||| (res (2 * i + 1) &&& 0xffff) <<< 8 |||
    (res (2 * i + 2) &&& 0xffff) >>> 8

/-- What `jz_mmc_cmd_done` takes from the response FIFO: the number of words it reads, and
`cmd->resp` afterwards. -/
def takeResponse (format : Nat) (res : Nat → BitVec 32) (resp : Fin 4 → BitVec 32) :
    Nat × (Fin 4 → BitVec 32) :=
  match format with
  | 1 =>
    (3, Function.update resp 0 ((res 0 &&& 0xff) <<< 24 ||| (res 1 >>> 8 &&& 0xff) <<< 16 |||
      (res 1 &&& 0xff) <<< 8 ||| (res 2 &&& 0xff)))
  | 2 => (9, longResponse res)
  | _ => (0, resp)

/-! ### The driver -/

/-- `jz_mmc_enable_irq` -/
def jzMmcEnableIrq (mask : BitVec 8) : M Unit :=
  modify fun s => { s with imask := s.imask &&& ~~~mask, regImask := s.imask &&& ~~~mask }

/-- `jz_mmc_disable_irq` -/
def jzMmcDisableIrq (mask : BitVec 8) : M Unit :=
  modify fun s => { s with imask := s.imask ||| mask, regImask := s.imask ||| mask }

/-- `jz_mmc_finish_request` -/
def jzMmcFinishRequest (mrq : Option Nat) : M Unit :=
  modify fun s => { s with mrq := none, cmd := none, data := none }.record (.done mrq)

/-- The error a status means for a command, if it is one. -/
def cmdError (stat : BitVec 32) (c : Command) : Option Int :=
  if stat &&& statTimeOutRes ≠ 0 then some (-ETIMEDOUT)
  else if stat &&& statCrcResErr ≠ 0 ∧ c.flags &&& mmcRspCrc ≠ 0 then
    -- a bogus CRC error can appear if the top bit of a long response is a one
    if (c.opcode = 2 ∨ c.opcode = 9 ∨ c.opcode = 10) ∧ c.resp 0 &&& 0x80000000 = 0 then
      some (-EILSEQ)
    else none
  else none

/-- `jz_mmc_cmd_done` -/
def jzMmcCmdDone (env : CmdEnv) : M Unit := do
  match (← get).cmd with
  | none => return ()
  | some p =>
    modify fun s => { s with cmd := none }
    match (← get).command p with
    | none => return ()
    | some c =>
      let format := (← get).rType
      let (words, resp) := takeResponse format env.res c.resp
      let c' := { c with resp := resp }
      let c' := { c' with error := (cmdError env.stat c').getD c'.error }
      modify fun s =>
        (s.modifyCommand p fun _ => c').record (.response c.flags format words c.resp resp)
      if (← get).data.isSome ∧ c'.error = 0 then jzMmcEnableIrq dataTranDone
      else jzMmcFinishRequest (← get).mrq

/-- The bits of `CMDAT` for the response type of a command; sets `r_type`. -/
def selectResponse (flags cmdat : BitVec 32) : M (BitVec 32) := do
  if rspType flags = rspR1 then
    modify fun s => { s with rType := 1 }
    return cmdat ||| 1
  else if rspType flags = rspR3 then
    modify fun s => { s with rType := 1 }
    return cmdat ||| 3
  else if rspType flags = rspR2 then
    modify fun s => { s with rType := 2 }
    return cmdat ||| 2
  else return cmdat

/-- What `REG_MSC_ARG` holds once the argument of a command was set: with a one-bit bus the
commands that widen it are changed, and opcode 6 with another argument sets nothing. -/
def busArg (c : Command) (regArg : BitVec 32) : BitVec 32 :=
  if c.opcode = 6 then
    if c.arg = 2 then 0 else if c.arg = 0x3b70101 then 0x3b70001 else regArg
  else c.arg

/-- The end of `jz_mmc_start_cmd` for a command that cannot be answered. -/
def failCmd (p : CmdPtr) : M Unit := do
  modify fun s => s.modifyCommand p fun c => { c with error := -ETIMEDOUT }
  jzMmcFinishRequest (← get).mrq

/-- What `jz_mmc_data_done` records in the data of a request. -/
def dataResult (e : IrqEnv) (d : Data) : Data :=
  let error :=
    if e.stat &&& statTimeOutRead ≠ 0 then -ETIMEDOUT
    else if e.dataStat &&& (statCrcReadError ||| statCrcWriteError) ≠ 0 then -EILSEQ
    else d.error
  { d with error := error, bytesXfered := if error = 0 then d.blocks * d.blksz else 0 }

/-- The `CMDAT` bits of a request with data. -/
def dataCmdat (opcode : BitVec 32) (d : Data) (cmdat : BitVec 32) : BitVec 32 :=
  let cmdat := cmdat &&& ~~~cmdatBusy
  let cmdat :=
    if opcode = 51 ∨ opcode = 8 ∨ opcode = 6 then cmdat ||| cmdatDataEn ||| cmdatDmaEn
    else (cmdat &&& ~~~cmdatBusWidth4) ||| cmdatDataEn ||| cmdatDmaEn
  let cmdat := if d.flags &&& mmcDataWrite ≠ 0 then cmdat ||| cmdatWrite else cmdat
  if d.flags &&& mmcDataStream ≠ 0 then cmdat ||| cmdatStreamBlock else cmdat

/-- What the functions below are put together from.  They are written once for the request
machine alone and for a machine with more state. -/
structure Ops (m : Type → Type) where
  /-- a part of the request machine -/
  lift : {α : Type} → M α → m α
  state : m State
  /-- `jz_mmc_rx_setup_data` for a request and `jz_mmc_tx_setup_data` -/
  rxSetupData : Nat → Data → m Unit
  txSetupData : m Unit
  /-- a command is started, with the argument register as it is -/
  starts : CmdPtr → Command → m Unit
  /-- `dma_unmap_sg` for a request -/
  unmaps : Nat → m Unit

section

variable {m : Type → Type} [Monad m] (k : Ops m)

/-- `jz_mmc_start_cmd`; `window` takes the interrupts that come while it runs. -/
def Ops.jzMmcStartCmd (window : Nat → m Unit) (env : CmdEnv) (p : CmdPtr) (cmdat : BitVec 32) :
    m Unit := do
  k.lift (modify fun s => { s with cmd := some p })
  window 2
  k.lift (modify fun s => { s with regImask := 0xff })
  window 3
  match (← k.state).command p with
  | none => return ()
  | some c =>
    let cmdat := if c.flags &&& mmcRspBusy ≠ 0 then cmdat ||| cmdatBusy else cmdat
    let cmdat ← k.lift (selectResponse c.flags cmdat)
    k.lift (modify fun s => { s with regArg := busArg c s.regArg })
    window 4
    k.starts p c
    k.lift (modify fun s => s.record (.send c.flags c.opcode s.regArg cmdat))
    window 5
    if !env.slotEnable then k.lift (failCmd p)
    else if c.opcode = sdIoSendOpCond then k.lift (failCmd p)
    else
      k.lift (jzMmcCmdDone env)
      window 6
      if (← k.state).data.isSome ∧ isWrite c.opcode then
        window 7
        k.txSetupData

/-- `jz_mmc_data_done` -/
def Ops.jzMmcDataDone (e : IrqEnv) : m Unit := do
  match (← k.state).data with
  | none => return ()
  | some i =>
    k.unmaps i
    k.lift (modify fun s => s.modifyData i (dataResult e))
    k.lift (jzMmcDisableIrq dataTranDone)
    k.lift (modify fun s => { s with data := none })
    let s ← k.state
    match s.mrq.bind fun m => s.command (.stop m) with
    | some _ => k.jzMmcStartCmd (fun _ => return ()) e.stop (.stop (s.mrq.getD 0)) 0
    | none => k.lift (jzMmcFinishRequest s.mrq)

/-- `jz_mmc_irq` -/
def Ops.jzMmcIrq (e : IrqEnv) : m Unit := do
  if e.ireg &&& dataTranDone ≠ 0 then k.jzMmcDataDone e

/-- An interrupt is taken unless it is masked. -/
def Ops.raise (e : IrqEnv) : m Unit := do
  if e.ireg &&& ~~~(← k.state).regImask ≠ 0 then k.jzMmcIrq e

/-- The interrupts that come while process-level code runs, by the point where they come. -/
def Ops.irqWindow (irqs : Nat → Option IrqEnv) (n : Nat) : m Unit :=
  match irqs n with
  | none => return ()
  | some e => k.raise e

/-- `jz_mmc_request` -/
def Ops.jzMmcRequest (r : Request) (env : CmdEnv) (irqs : Nat → Option IrqEnv) : m Unit := do
  let i := (← k.state).reqs.length
  k.lift (modify fun s => { s with reqs := s.reqs ++ [r], mrq := some i })
  k.irqWindow irqs 0
  k.lift (modify fun s => { s with data := r.data.map fun _ => i })
  k.irqWindow irqs 1
  let cmdat := (← k.state).cmdat
  k.lift (modify fun s => { s with cmdat := s.cmdat &&& ~~~cmdatInit })
  match r.data with
  | none => k.jzMmcStartCmd (k.irqWindow irqs) env (.cmd i) cmdat
  | some d =>
    if !isWrite r.cmd.opcode then k.rxSetupData i d
    k.jzMmcStartCmd (k.irqWindow irqs) env (.cmd i) (dataCmdat r.cmd.opcode d cmdat)

end

/-! ### The request machine -/

/-- The request machine alone: buffers are set up by a note in its log. -/
@[simps] def plain : Ops M where
  lift x := x
  state := get
  rxSetupData i _ := modify fun s => s.record (.rxSetup i)
  txSetupData := modify fun s => s.record (.txSetup s.data)
  starts _ _ := pure ()
  unmaps _ := pure ()

abbrev jzMmcStartCmd : (Nat → M Unit) → CmdEnv → CmdPtr → BitVec 32 → M Unit :=
  plain.jzMmcStartCmd

abbrev jzMmcDataDone : IrqEnv → M Unit := plain.jzMmcDataDone

abbrev jzMmcIrq : IrqEnv → M Unit := plain.jzMmcIrq

abbrev raise : IrqEnv → M Unit := plain.raise

abbrev irqWindow : (Nat → Option IrqEnv) → Nat → M Unit := plain.irqWindow

abbrev jzMmcRequest : Request → CmdEnv → (Nat → Option IrqEnv) → M Unit := plain.jzMmcRequest

/-! ### Runs -/

inductive Act where
  | request (r : Request) (env : CmdEnv) (irqs : Nat → Option IrqEnv)
  | irq (e : IrqEnv)

def step (s : State) : Act → State
  | .request r env irqs => (jzMmcRequest r env irqs s).2
  | .irq e => (raise e s).2

def run (s : State) (acts : List Act) : State := acts.foldl step s

/-- The state `jz_mmc_probe` leaves: every interrupt masked. -/
def initState : State where
  reqs := []
  mrq := none
  cmd := none
  data := none
  imask := 0xff
  cmdat := 0
  rType := 0
  regImask := 0xff
  regArg := 0
  log := []

/-- The requests completed so far, in order. -/
def doneLog (s : State) : List (Option Nat) :=
  s.log.filterMap fun
    | .done mrq => some mrq
    | _ => none

end Dingoo.MmcHost
