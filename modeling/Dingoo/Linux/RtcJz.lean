/-
The RTC driver, `drivers/char/rtc_jz.c`.

Each function is a program over the registers and the statics of the driver, and `rtc_lock`.
A loop on `__rtc_write_ready` waits for the hardware, which may change the registers at
any time.  What the caller gives and gets is data of the call: whether copies from and to
user space succeed, whether the caller may set the time, what is copied out, and what
stands on the kernel stack before.

`run_sbin_rtc_alarm`, which the alarm schedules, and the messages are left out.
-/
import Dingoo.Linux.RtcLib
import Dingoo.Lib.LockProg

namespace Dingoo.Rtc

open Dingoo.Lib Dingoo.Lib.LockProg

/-- `REG_RTC_RCR`, `REG_RTC_RSR`, `REG_RTC_RSAR`, `REG_RTC_HCR`, `REG_RTC_HWCR` -/
structure Regs where
  rcr : BitVec 32
  rsr : BitVec 32
  rsar : BitVec 32
  hcr : BitVec 32
  hwcr : BitVec 32

/-- The registers and the statics of the driver. -/
structure Dev where
  regs : Regs
  /-- `rtc_status` -/
  status : BitVec 32
  epoch : BitVec 32

def RTC_RCR_WRDY : BitVec 32 := 1 <<< 7
def RTC_RCR_1HZ : BitVec 32 := 1 <<< 6
def RTC_RCR_AF : BitVec 32 := 1 <<< 4
def RTC_RCR_AIE : BitVec 32 := 1 <<< 3
def RTC_RCR_AE : BitVec 32 := 1 <<< 2

def RTC_AIE : Nat := 3
def RTC_1HZIE : Nat := 5
def RTC_ALM_EN : Nat := 2
def RTC_EN : Nat := 0

def EACCES : Int := 13
def EFAULT : Int := 14
def EBUSY : Int := 16
def EINVAL : Int := 22

/-- `struct rtc_wkalrm`; the compiler puts two bytes before the time. -/
structure RtcWkalrm where
  enabled : BitVec 8
  pending : BitVec 8
  padding : BitVec 16
  time : RtcTime
deriving DecidableEq, Repr

/-- What a call copies to user space. -/
inductive Copied
  | nothing
  | time (tm : RtcTime)
  | alarm (wkalrm : RtcWkalrm)
  | epoch (n : BitVec 32)
deriving DecidableEq, Repr

structure Reply where
  code : Int
  copied : Copied
deriving DecidableEq, Repr

def reply (code : Int) : Reply := ⟨code, .nothing⟩

/-- `copy_to_user(...) ? -EFAULT : 0` -/
def copyToUser (ok : Bool) (copied : Copied) : Reply := if ok then ⟨0, copied⟩ else reply (-EFAULT)

/-! ### Access to the registers -/

/-- `while ( !__rtc_write_ready() ) ;` -/
def rtcWriteReady : LockProg Dev Unit := waitFor fun d => d.regs.rcr &&& RTC_RCR_WRDY ≠ 0

def changeRegs (f : Regs → Regs) : LockProg Dev Unit := modify fun d => { d with regs := f d.regs }

/-- `REG_RTC_RCR |= v` -/
def rcrSet (v : BitVec 32) : LockProg Dev Unit := changeRegs fun r => { r with rcr := r.rcr ||| v }

/-- `REG_RTC_RCR &= ~v` -/
def rcrClear (v : BitVec 32) : LockProg Dev Unit :=
  changeRegs fun r => { r with rcr := r.rcr &&& ~~~v }

/-- The fields that the driver takes over from a valid time; the rest keeps what it has. -/
def takeOver (ltm tm : RtcTime) : RtcTime :=
  if rtcValidTm ltm then
    { tm with
      tmSec := ltm.tmSec, tmMin := ltm.tmMin, tmHour := ltm.tmHour, tmMday := ltm.tmMday
      tmWday := ltm.tmWday, tmMon := ltm.tmMon, tmYear := ltm.tmYear }
  else tm

/-- `get_rtc_time`; `ltm` is the local before it is written. -/
def getRtcTime (ltm rtcTm : RtcTime) : LockProg Dev RtcTime := do
  takeLock
  rtcWriteReady
  let d ← read
  let out := takeOver (rtcTimeToTm d.regs.rsr ltm) rtcTm
  dropLock
  return out

/-- `set_rtc_time` -/
def setRtcTime (rtcTm : RtcTime) : LockProg Dev Int := do
  takeLock
  rtcWriteReady
  changeRegs fun r => { r with rsr := rtcTmToTime rtcTm }
  dropLock
  return 0

/-- `get_rtc_alm_time` -/
def getRtcAlmTime (altm almTm : RtcTime) : LockProg Dev RtcTime := do
  takeLock
  rtcWriteReady
  let d ← read
  let out := takeOver (rtcTimeToTm d.regs.rsar altm) almTm
  dropLock
  return out

/-- `set_rtc_alm_time` -/
def setRtcAlmTime (almTm : RtcTime) : LockProg Dev Int := do
  takeLock
  rtcWriteReady
  changeRegs fun r => { r with rsar := rtcTmToTime almTm }
  rtcWriteReady
  let d ← read
  onlyIf ((d.regs.rcr >>> 2) &&& 0x1 = 0) do
    rtcWriteReady
    rcrSet RTC_RCR_AE
  rtcWriteReady
  let d ← read
  onlyIf (d.regs.rcr &&& RTC_RCR_AIE = 0) (rcrSet RTC_RCR_AIE)
  dropLock
  return 0

/-- `get_rtc_wakeup_alarm` -/
def getRtcWakeupAlarm (altm : RtcTime) (wkalm : RtcWkalrm) : LockProg Dev RtcWkalrm := do
  let time ← getRtcAlmTime altm wkalm.time
  takeLock
  rtcWriteReady
  let d ← read
  let enabled := d.regs.hwcr &&& 0x1
  let pending : BitVec 8 := if enabled ≠ 0 ∧ d.regs.rsar.toNat > d.regs.rsr.toNat then 1 else 0
  dropLock
  return { wkalm with enabled := enabled.setWidth 8, pending := pending, time := time }

/-- `set_rtc_wakeup_alarm`, which does not take the lock itself -/
def setRtcWakeupAlarm (wkalm : RtcWkalrm) : LockProg Dev Int := do
  let enabled : BitVec 32 := wkalm.enabled.setWidth 32
  rtcWriteReady
  let d ← read
  onlyIf (enabled ≠ d.regs.hwcr &&& 0x1) do
    rtcWriteReady
    changeRegs fun r => { r with hwcr := (r.hwcr &&& ~~~0x1) ||| enabled }
  rtcWriteReady
  let d ← read
  onlyIf (enabled ≠ (d.regs.rcr >>> 2) &&& 0x1) do
    rtcWriteReady
    changeRegs fun r => { r with rcr := (r.rcr &&& ~~~(1#32 <<< 2)) ||| (enabled <<< 2) }
  if enabled = 0 then
    return 0
  else
    rtcWriteReady
    let d ← read
    onlyIf (d.regs.rcr &&& RTC_RCR_AIE = 0) (rcrSet RTC_RCR_AIE)
    let _ ← setRtcAlmTime wkalm.time
    return 0

/-- A change of one bit of the control register, under the lock. -/
def changeIrqBit (change : LockProg Dev Unit) : LockProg Dev Unit := do
  takeLock
  rtcWriteReady
  change
  dropLock

/-- `set_rtc_irq_bit` -/
def setRtcIrqBit (bit : Nat) : LockProg Dev Unit := changeIrqBit (rcrSet (1 <<< bit))

/-- `mask_rtc_irq_bit` -/
def maskRtcIrqBit (bit : Nat) : LockProg Dev Unit := changeIrqBit (rcrClear (1 <<< bit))

/-! ### Calls -/

/-- The commands of `rtc_ioctl` with what the call gets: data read from user space (none if the
copy fails), whether a copy to user space succeeds, whether the caller is capable of
`CAP_SYS_TIME`. -/
inductive Cmd
  | aieOff | aieOn | hzOff | hzOn | almOff | almOn | disabled | enabled
  | almRead (copyOk : Bool)
  | almSet (tm : Option RtcTime)
  | rdTime (copyOk : Bool)
  | setTime (capable : Bool) (tm : Option RtcTime)
  | epochRead (copyOk : Bool)
  | epochSet (capable : Bool) (arg : BitVec 32)
  | wkalmSet (wkalrm : Option RtcWkalrm)
  | wkalmRd (copyOk : Bool)
  | powerDown
  | other

/-- What stands on the stack where the locals of `rtc_ioctl` and of the functions it calls are. -/
structure Stack where
  wtime : RtcTime
  wkalrm : RtcWkalrm
  ltm : RtcTime

/-- `rtc_ioctl` -/
def rtcIoctl (stack : Stack) : Cmd → LockProg Dev Reply
  | .aieOff => do
      maskRtcIrqBit RTC_AIE
      return reply 0
  | .aieOn => do
      rcrClear RTC_RCR_AF
      setRtcIrqBit RTC_AIE
      return reply 0
  | .hzOff => do
      maskRtcIrqBit RTC_1HZIE
      return reply 0
  | .hzOn => do
      rcrClear RTC_RCR_1HZ
      setRtcIrqBit RTC_1HZIE
      return reply 0
  | .almOff => do
      maskRtcIrqBit RTC_ALM_EN
      return reply 0
  | .almOn => do
      setRtcIrqBit RTC_ALM_EN
      return reply 0
  | .disabled => do
      maskRtcIrqBit RTC_EN
      return reply 0
  | .enabled => do
      setRtcIrqBit RTC_EN
      return reply 0
  | .almRead ok => do
      let wtime ← getRtcAlmTime stack.ltm stack.wtime
      return copyToUser ok (.time wtime)
  | .almSet none => return reply (-EFAULT)
  | .almSet (some almTm) =>
    if rtcValidTm almTm then do
      let code ← setRtcAlmTime almTm
      return reply code
    else return reply (-EFAULT)
  | .rdTime ok => do
      let wtime ← getRtcTime stack.ltm stack.wtime
      return copyToUser ok (.time wtime)
  | .setTime false _ => return reply (-EACCES)
  | .setTime true none => return reply (-EFAULT)
  | .setTime true (some rtcTm) =>
    if rtcValidTm rtcTm then do
      let code ← setRtcTime rtcTm
      return reply code
    else return reply (-EFAULT)
  | .epochRead ok => do
      let d ← read
      return copyToUser ok (.epoch d.epoch)
  | .epochSet capable arg =>
    if arg.toNat < 1900 then return reply (-EINVAL)
    else if capable then do
      modify fun d => { d with epoch := arg }
      return reply 0
    else return reply (-EACCES)
  | .wkalmSet none => return reply (-EFAULT)
  | .wkalmSet (some wkalrm) => do
      let code ← setRtcWakeupAlarm wkalrm
      return reply code
  | .wkalmRd ok => do
      let wkalrm ← getRtcWakeupAlarm stack.ltm stack.wkalrm
      return copyToUser ok (.alarm wkalrm)
  | .powerDown => do
      rtcWriteReady
      changeRegs fun r => { r with hcr := 0x1 }
      return reply 0
  | .other => return reply (-EINVAL)

/-- `rtc_open` behind its `spin_lock_irq`.  The way out for a device that is open does not give
the lock back. -/
def rtcOpenLocked : LockProg Dev Reply := do
  let d ← read
  if d.status ≠ 0 then
    return reply (-EBUSY)
  else
    modify fun d => { d with status := 1 }
    dropLock
    return reply 0

/-- `rtc_open` -/
def rtcOpen : LockProg Dev Reply := do
  takeLock
  rtcOpenLocked

/-- `rtc_release` -/
def rtcRelease : LockProg Dev Reply := do
  modify fun d => { d with status := 0 }
  return reply 0

/-- `IRQ_HANDLED` -/
def IRQ_HANDLED : Int := 1

/-- `jz_rtc_interrupt` -/
def jzRtcInterrupt : LockProg Dev Reply := do
  changeRegs fun r => { r with hcr := 0x0 }
  takeLock
  let d ← read
  onlyIf (d.regs.rcr &&& RTC_RCR_1HZ ≠ 0) do
    rtcWriteReady
    rcrClear RTC_RCR_1HZ
  let d ← read
  onlyIf (d.regs.rcr &&& RTC_RCR_AF ≠ 0) do
    rtcWriteReady
    rcrClear RTC_RCR_AF
  dropLock
  return reply IRQ_HANDLED

inductive Call
  | rtcOpen
  | rtcIoctl (stack : Stack) (cmd : Cmd)
  | rtcRelease
  | interrupt

def Call.prog : Call → LockProg Dev Reply
  | .rtcOpen => Rtc.rtcOpen
  | .rtcIoctl stack cmd => Rtc.rtcIoctl stack cmd
  | .rtcRelease => Rtc.rtcRelease
  | .interrupt => jzRtcInterrupt

/-- A process calls the driver or an interrupt comes, a call under way makes a step, or the
hardware changes the registers. -/
inductive Event
  | call (c : Call)
  | step (i : Nat)
  | hardware (regs : Regs)

def Event.action : Event → LockAction Dev Reply
  | .call c => .begin c.prog
  | .step i => .step i
  | .hardware regs => .change fun d => { d with regs := regs }

/-- The driver when it is loaded. -/
def start (regs : Regs) : LockMachine Dev Reply :=
  { data := ⟨regs, 0, 1900⟩, holder := none, irqs := true, calls := fun _ => none, next := 0,
    results := [] }

end Dingoo.Rtc
