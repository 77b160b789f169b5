/-
What reading the clock shows of the kernel stack.

`rtc_time_to_tm` makes a valid time of every value of the register, so the driver always takes
over the same seven fields; `tm_yday` and `tm_isdst` it never takes over.  What is copied to user
space is thus what the registers give, but for these two fields and the padding in front of
the time of an alarm: those are bytes of the stack (`stale`).

A read is one program mapped by what it makes of the registers, so this holds of whole runs, with
other calls, interrupts and changes of the registers in between.
-/
import Dingoo.Lib.LockMap
import Dingoo.Proofs.RtcJz

namespace Dingoo.Rtc

open Dingoo.Lib Dingoo.Lib.LockProg

/-! ### Every time is valid -/

theorem findMonth_spec (year : Nat) : ∀ (n month : Nat) (days : Int), 0 ≤ days →
    days < ((List.range' month (n + 1)).map (rtcMonthDays · year)).sum →
    (findMonth year n month days).1 ≤ month + n ∧ 0 ≤ (findMonth year n month days).2 ∧
    (findMonth year n month days).2 < rtcMonthDays (findMonth year n month days).1 year := by
  intro n
  induction n with
  | zero =>
    intro month days hlo hhi
    refine ⟨Nat.le_refl _, hlo, ?_⟩
    simpa [findMonth] using hhi
  | succ n ih =>
    intro month days hlo hhi
    rw [List.range'_succ, List.map_cons, List.sum_cons] at hhi
    rw [findMonth]
    split
    · exact ⟨Nat.le_add_right _ _, hlo, by dsimp only; omega⟩
    · obtain ⟨hmonth, hday⟩ := ih (month + 1) (days - rtcMonthDays month year) (by omega)
        (by omega)
      exact ⟨by omega, hday⟩

theorem sum_rtcMonthDays (year : Nat) :
    ((List.range' 0 12).map (rtcMonthDays · year)).sum = 365 + if leapYear year then 1 else 0 := by
  unfold rtcMonthDays
  cases leapYear year <;> rfl

/-- The year, and the day in it counted from 0. -/
def yearDay (days : Nat) : Nat × Int :=
  let year := 1970 + days / 365
  let left : Int := days - ((year - 1970) * 365 + leapsThruEndOf (year - 1) - leapsThruEndOf 1969)
  if left < 0 then (year - 1, left + 365 + (if leapYear (year - 1) then 1 else 0)) else (year, left)

theorem yearDay_bounds {days : Nat} (hdays : days ≤ 49710) :
    1970 ≤ (yearDay days).1 ∧ (yearDay days).1 ≤ 2106 ∧ 0 ≤ (yearDay days).2 ∧
    (yearDay days).2 < 365 + (if leapYear (yearDay days).1 then 1 else 0) := by
  unfold yearDay leapsThruEndOf
  dsimp only
  split
  · refine ⟨by dsimp only; omega, by dsimp only; omega, ?_, by dsimp only; omega⟩
    dsimp only
    split <;> omega
  · refine ⟨by dsimp only; omega, by dsimp only; omega, by dsimp only; omega, ?_⟩
    dsimp only
    split <;> omega

theorem rtcMonthDays_le (mon year : Nat) : rtcMonthDays mon year ≤ 32 := by
  have hdays : ∀ d ∈ rtcDaysInMonth, d ≤ 31 := by decide
  have hget : rtcDaysInMonth.getD mon 0 ≤ 31 := by
    rw [List.getD_eq_getElem?_getD]
    cases hmon : rtcDaysInMonth[mon]? with
    | none => exact Nat.zero_le _
    | some d => exact hdays d (List.mem_of_getElem? hmon)
  unfold rtcMonthDays
  split <;> omega

theorem toInt_ofNat_small {k : Nat} (hk : k < 1000) : (BitVec.ofNat 32 k).toInt = k := by
  rw [BitVec.toInt_ofNat', Int.bmod_eq_of_le (by omega) (by omega)]

theorem date_rtcTimeToTm (time : BitVec 32) (tm : RtcTime) {year : Nat} {left : Int}
    (hyear : yearDay (time.toNat / 86400) = (year, left)) :
    (rtcTimeToTm time tm).tmYear = BitVec.ofInt 32 (year - 1900) ∧
    (rtcTimeToTm time tm).tmMon = BitVec.ofNat 32 (findMonth year 11 0 left).1 ∧
    (rtcTimeToTm time tm).tmMday = BitVec.ofInt 32 ((findMonth year 11 0 left).2 + 1) := by
  unfold yearDay at hyear
  unfold rtcTimeToTm
  dsimp only at hyear ⊢
  split at hyear
  · rename_i hback
    cases hyear
    rw [if_pos hback, if_pos hback]
    exact ⟨rfl, rfl, rfl⟩
  · rename_i hback
    cases hyear
    rw [if_neg hback, if_neg hback]
    exact ⟨rfl, rfl, rfl⟩

theorem timeOfDay_rtcTimeToTm (time : BitVec 32) (tm : RtcTime) :
    (rtcTimeToTm time tm).tmHour.toNat < 24 ∧ (rtcTimeToTm time tm).tmMin.toNat < 60 ∧
    (rtcTimeToTm time tm).tmSec.toNat < 60 := by
  have hlt := time.isLt
  refine ⟨?_, ?_, ?_⟩
  all_goals
    change (BitVec.ofNat 32 _).toNat < _
    rw [BitVec.toNat_ofNat]
    omega

theorem date_found (time : BitVec 32) (tm : RtcTime) : ∃ (year mon mday : Nat) (left : Int),
    yearDay (time.toNat / 86400) = (year, left) ∧ findMonth year 11 0 left = (mon, (mday : Int)) ∧
    (1970 ≤ year ∧ year ≤ 2106 ∧ mon < 12 ∧ mday < rtcMonthDays mon year) ∧
    (rtcTimeToTm time tm).tmYear = BitVec.ofNat 32 (year - 1900) ∧
    ((rtcTimeToTm time tm).tmYear + 1900).toNat = year ∧
    (rtcTimeToTm time tm).tmMon.toNat = mon ∧
    (rtcTimeToTm time tm).tmMday = BitVec.ofNat 32 (mday + 1) := by
  have hlt := time.isLt
  have hbounds := @yearDay_bounds (time.toNat / 86400) (by omega)
  obtain ⟨⟨year, left⟩, hyear⟩ : ∃ y, yearDay (time.toNat / 86400) = y := ⟨_, rfl⟩
  rw [hyear] at hbounds
  obtain ⟨hlo, hhi, hday, hlast⟩ := hbounds
  obtain ⟨htmYear, htmMon, htmMday⟩ := date_rtcTimeToTm time tm hyear
  obtain ⟨hmon, hmday, hend⟩ := findMonth_spec year 11 0 left hday
    (by rw [sum_rtcMonthDays]; push_cast; exact hlast)
  obtain ⟨⟨mon, mday⟩, hfound⟩ : ∃ m, findMonth year 11 0 left = m := ⟨_, rfl⟩
  rw [hfound] at htmMon htmMday hmon hmday hend
  dsimp only at *
  lift mday to Nat using hmday
  have hyear' : (rtcTimeToTm time tm).tmYear = BitVec.ofNat 32 (year - 1900) := by
    rw [htmYear, ← BitVec.ofInt_natCast]
    congr 1
    omega
  refine ⟨year, mon, mday, left, hyear, hfound, by omega, hyear', ?_, ?_,
    htmMday.trans (BitVec.ofInt_natCast 32 (mday + 1))⟩
  · rw [hyear', BitVec.toNat_add, BitVec.toNat_ofNat]
    change ((year - 1900) % 2 ^ 32 + 1900) % 2 ^ 32 = year
    omega
  · rw [htmMon]
    exact Nat.mod_eq_of_lt (by omega)

theorem rtcValidTm_rtcTimeToTm (time : BitVec 32) (tm : RtcTime) :
    rtcValidTm (rtcTimeToTm time tm) = true := by
  obtain ⟨year, mon, mday, left, -, -, hbounds, hyear, hfull, hmon, hmday⟩ := date_found time tm
  obtain ⟨hhour, hmin, hsec⟩ := timeOfDay_rtcTimeToTm time tm
  have hle := rtcMonthDays_le mon year
  unfold rtcValidTm
  rw [hfull, hmon, hyear, hmday, toInt_ofNat_small (by omega), toInt_ofNat_small (by omega)]
  simp only [decide_eq_true_eq]
  omega

/-! ### What a read copies -/

/-- A word in memory. -/
def wordBytes (w : BitVec 32) : List (BitVec 8) :=
  [w.setWidth 8, (w >>> 8).setWidth 8, (w >>> 16).setWidth 8, (w >>> 24).setWidth 8]

/-- The fields that the driver takes over, and those that it does not. -/
def RtcTime.front (tm : RtcTime) : List (BitVec 8) :=
  [tm.tmSec, tm.tmMin, tm.tmHour, tm.tmMday, tm.tmMon, tm.tmYear, tm.tmWday].flatMap wordBytes
def RtcTime.rest (tm : RtcTime) : List (BitVec 8) := [tm.tmYday, tm.tmIsdst].flatMap wordBytes

def RtcTime.bytes (tm : RtcTime) : List (BitVec 8) := tm.front ++ tm.rest

def RtcWkalrm.gap (w : RtcWkalrm) : List (BitVec 8) :=
  [w.padding.setWidth 8, (w.padding >>> 8).setWidth 8]

def RtcWkalrm.bytes (w : RtcWkalrm) : List (BitVec 8) :=
  [w.enabled, w.pending] ++ (w.gap ++ w.time.bytes)

def Copied.bytes : Copied → List (BitVec 8)
  | .nothing => []
  | .time tm => tm.bytes
  | .alarm w => w.bytes
  | .epoch n => wordBytes n

/-- The bytes copied to user space by the calls that have returned, where a copy ends after `n`
bytes. -/
def sent (n : Nat) (m : LockMachine Dev Reply) : List (List (BitVec 8)) :=
  m.results.map fun r => r.copied.bytes.take n

/-- The commands that read the clock. -/
inductive Read
  | rdTime | almRead | wkalmRd

def Read.cmd : Read → Cmd
  | .rdTime => .rdTime true
  | .almRead => .almRead true
  | .wkalmRd => .wkalmRd true

/-- The bytes of the stack among the first `n` that a read copies. -/
def stale (n : Nat) (stack : Stack) : Read → List (BitVec 8)
  | .rdTime | .almRead => stack.wtime.rest.take (n - 28)
  | .wkalmRd => stack.wkalrm.gap.take (n - 2) ++ stack.wkalrm.time.rest.take (n - 32)

/-- What a read learns from the registers; the last two for an alarm only. -/
structure Seen where
  time : BitVec 32
  enabled : BitVec 8
  pending : BitVec 8

/-- The read of a time register under the lock. -/
def readClock (reg : Regs → BitVec 32) : LockProg Dev (BitVec 32) := do
  takeLock
  rtcWriteReady
  let d ← read
  dropLock
  return reg d.regs

/-- What a read does, without the stack. -/
def Read.core : Read → LockProg Dev Seen
  | .rdTime => do return ⟨← readClock Regs.rsr, 0, 0⟩
  | .almRead => do return ⟨← readClock Regs.rsar, 0, 0⟩
  | .wkalmRd => do
      let time ← readClock Regs.rsar
      takeLock
      rtcWriteReady
      let d ← read
      let enabled := d.regs.hwcr &&& 0x1
      let pending : BitVec 8 := if enabled ≠ 0 ∧ d.regs.rsar.toNat > d.regs.rsr.toNat then 1 else 0
      dropLock
      return ⟨time, enabled.setWidth 8, pending⟩

/-- What it returns. -/
def Read.view (stack : Stack) (x : Seen) : Read → Reply
  | .rdTime | .almRead => ⟨0, .time (takeOver (rtcTimeToTm x.time stack.ltm) stack.wtime)⟩
  | .wkalmRd => ⟨0, .alarm
      { stack.wkalrm with
        enabled := x.enabled
        pending := x.pending
        time := takeOver (rtcTimeToTm x.time stack.ltm) stack.wkalrm.time }⟩

theorem rtcIoctl_eq_map (stack : Stack) (c : Read) :
    rtcIoctl stack c.cmd = c.core.map fun x => c.view stack x := by
  cases c <;> rfl

theorem bytes_takeOver {ltm : RtcTime} (hvalid : rtcValidTm ltm = true) (tm : RtcTime) :
    (takeOver ltm tm).bytes = ltm.front ++ tm.rest := by
  rw [takeOver, if_pos hvalid]
  rfl

theorem rtcTimeToTm_eq (time : BitVec 32) (tm tm' : RtcTime) :
    rtcTimeToTm time tm = { rtcTimeToTm time tm' with tmIsdst := tm.tmIsdst } := rfl

theorem front_rtcTimeToTm (time : BitVec 32) (tm tm' : RtcTime) :
    (rtcTimeToTm time tm).front = (rtcTimeToTm time tm').front := by
  rw [rtcTimeToTm_eq time tm tm']
  generalize rtcTimeToTm time tm' = x
  rfl

theorem take_view_iff (n : Nat) (s₁ s₂ : Stack) (x : Seen) (c : Read) :
    (c.view s₁ x).copied.bytes.take n = (c.view s₂ x).copied.bytes.take n ↔
      stale n s₁ c = stale n s₂ c := by
  have htime : ∀ tm₁ tm₂ : RtcTime, ∀ k,
      (takeOver (rtcTimeToTm x.time s₁.ltm) tm₁).bytes.take k =
        (takeOver (rtcTimeToTm x.time s₂.ltm) tm₂).bytes.take k ↔
      tm₁.rest.take (k - 28) = tm₂.rest.take (k - 28) := by
    intro tm₁ tm₂ k
    rw [bytes_takeOver (rtcValidTm_rtcTimeToTm _ _), bytes_takeOver (rtcValidTm_rtcTimeToTm _ _),
      front_rtcTimeToTm x.time s₁.ltm s₂.ltm, List.take_append, List.take_append,
      List.append_right_inj]
    rfl
  cases c with
  | rdTime => exact htime _ _ n
  | almRead => exact htime _ _ n
  | wkalmRd =>
    have halarm : ∀ w : RtcWkalrm, w.bytes.take n =
        [w.enabled, w.pending].take n ++ (w.gap.take (n - 2) ++ w.time.bytes.take (n - 4)) := by
      intro w
      rw [RtcWkalrm.bytes, List.take_append, List.take_append, Nat.sub_sub]
      rfl
    have hgap : (s₁.wkalrm.gap.take (n - 2)).length = (s₂.wkalrm.gap.take (n - 2)).length := by
      rw [List.length_take, List.length_take]
      rfl
    have hrest := htime s₁.wkalrm.time s₂.wkalrm.time (n - 4)
    rw [Nat.sub_sub] at hrest
    change (RtcWkalrm.bytes _).take n = (RtcWkalrm.bytes _).take n ↔ _
    rw [halarm, halarm]
    refine (List.append_right_inj _).trans ⟨fun h => ?_, fun h => ?_⟩
    · obtain ⟨hfirst, hsecond⟩ := List.append_inj h hgap
      exact congrArg₂ (· ++ ·) hfirst (hrest.mp hsecond)
    · obtain ⟨hfirst, hsecond⟩ := List.append_inj h hgap
      exact congrArg₂ (· ++ ·) hfirst (hrest.mpr hsecond)

/-! ### Whole runs -/

theorem run_call (regs : Regs) (pre post : List Event) (stack : Stack) (c : Read) :
    run regs (pre ++ .call (.rtcIoctl stack c.cmd) :: post) =
      (post.map Event.action).foldl LockMachine.act
        (({ run regs pre with next := (run regs pre).next + 1 } : LockMachine Dev Reply).setCall
          (run regs pre).next (some (c.core.map fun x => c.view stack x))) := by
  rw [← rtcIoctl_eq_map, run, List.map_append, List.foldl_append]
  rfl

/-- **Two runs that differ in the stack of one read copy the same bytes to user space if and only
if, once the read has returned, the bytes of the stack that it copied are the same.** -/
theorem reads_alike_iff (regs : Regs) (pre post : List Event) (c : Read) (s₁ s₂ : Stack)
    (n : Nat) :
    sent n (run regs (pre ++ .call (.rtcIoctl s₁ c.cmd) :: post)) =
        sent n (run regs (pre ++ .call (.rtcIoctl s₂ c.cmd) :: post)) ↔
      ((run regs (pre ++ .call (.rtcIoctl s₁ c.cmd) :: post)).calls (run regs pre).next = none →
        stale n s₁ c = stale n s₂ c) := by
  have hsound : (run regs pre).Sound leaves := (start_sound regs).run (actions_proper pre)
  have hlacks : LockMachine.Lacks (run regs pre).next
      ({ run regs pre with next := (run regs pre).next + 1 } : LockMachine Dev Reply) :=
    ⟨hsound.fresh _ (Nat.le_refl _), Nat.lt_succ_self _⟩
  rw [run_call, run_call]
  rcases LockMachine.run_map hlacks c.core (post.map Event.action) with
    ⟨m, p, hm⟩ | ⟨m, x, t, hended, hm⟩
  · rw [hm, hm]
    refine iff_of_true rfl fun hnone => ?_
    rw [LockMachine.setCall_self] at hnone
    cases hnone
  · rw [hm, hm]
    have hsent : ∀ r, sent n { m with results := m.results ++ r :: t } =
        sent n m ++ r.copied.bytes.take n :: t.map fun r => r.copied.bytes.take n := fun r => by
      rw [sent, List.map_append, List.map_cons]
      rfl
    rw [hsent, hsent, List.append_right_inj, List.cons.injEq, and_iff_left rfl, take_view_iff]
    exact ⟨fun h _ => h, fun h => h hended⟩

/-- A stack of zeros but for `tm_yday`, `tm_isdst` and the padding. -/
def markedStack (w : BitVec 32) : Stack where
  wtime := ⟨0, 0, 0, 0, 0, 0, 0, w, w⟩
  wkalrm := ⟨0, 0, w.setWidth 16, ⟨0, 0, 0, 0, 0, 0, 0, w, w⟩⟩
  ltm := ⟨0, 0, 0, 0, 0, 0, 0, 0, 0⟩

/-- One read, from its call to its end, with the registers ready. -/
def readOnce (c : Read) (w : BitVec 32) : LockMachine Dev Reply :=
  run ⟨RTC_RCR_WRDY, 0, 0, 0, 0⟩
    (.call (.rtcIoctl (markedStack w) c.cmd) :: List.replicate 9 (.step 0))

/-- Midnight of 1 January 1970, a Thursday, and four bytes of the stack twice; with an alarm, two
more in front. -/
theorem reads_show_stack :
    sent 36 (readOnce .rdTime 0xdeadbeef) =
      [[0, 0, 0, 0, 0, 0, 0, 0, 0, 0, 0, 0, 1, 0, 0, 0, 0, 0, 0, 0, 70, 0, 0, 0, 4, 0, 0, 0,
        0xef, 0xbe, 0xad, 0xde, 0xef, 0xbe, 0xad, 0xde]] ∧
    sent 36 (readOnce .almRead 0xdeadbeef) = sent 36 (readOnce .rdTime 0xdeadbeef) ∧
    sent 4 (readOnce .wkalmRd 0xdeadbeef) = [[0, 0, 0xef, 0xbe]] ∧
    sent 36 (readOnce .rdTime 0xdeadbeef) ≠ sent 36 (readOnce .rdTime 0) ∧
    sent 36 (readOnce .almRead 0xdeadbeef) ≠ sent 36 (readOnce .almRead 0) ∧
    sent 40 (readOnce .wkalmRd 0xdeadbeef) ≠ sent 40 (readOnce .wkalmRd 0) := by
  decide

end Dingoo.Rtc
