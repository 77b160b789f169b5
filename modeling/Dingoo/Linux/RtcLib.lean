/-
Dates and times of the RTC drivers, `drivers/rtc/rtc-lib.c`, with `mktime` of `kernel/time.c`.

`int` and `unsigned long` have 32 bits.  `rtc_time_to_tm` does not write `tm_isdst`.
-/
import Mathlib.Data.BitVec

namespace Dingoo.Rtc

/-- `struct rtc_time` -/
structure RtcTime where
  tmSec : BitVec 32
  tmMin : BitVec 32
  tmHour : BitVec 32
  tmMday : BitVec 32
  tmMon : BitVec 32
  tmYear : BitVec 32
  tmWday : BitVec 32
  tmYday : BitVec 32
  tmIsdst : BitVec 32
deriving DecidableEq, Repr

/-- `rtc_days_in_month` -/
def rtcDaysInMonth : List Nat := [31, 28, 31, 30, 31, 30, 31, 31, 30, 31, 30, 31]

/-- `LEAPS_THRU_END_OF` -/
def leapsThruEndOf (y : Nat) : Int := (y / 4 : Nat) - (y / 100 : Nat) + (y / 400 : Nat)

/-- `LEAP_YEAR` -/
def leapYear (year : Nat) : Bool := (year % 4 = 0 && year % 100 ≠ 0) || year % 400 = 0

/-- `rtc_month_days`, for a month below 12 -/
def rtcMonthDays (month year : Nat) : Nat :=
  rtcDaysInMonth.getD month 0 + if leapYear year && month = 1 then 1 else 0

/-- The loop over the months, with `n` left: the month and the days in it. -/
def findMonth (year : Nat) : Nat → Nat → Int → Nat × Int
  | 0, month, days => (month, days)
  | n + 1, month, days =>
    let newdays := days - rtcMonthDays month year
    if newdays < 0 then (month, days) else findMonth year n (month + 1) newdays

/-- `rtc_time_to_tm`.  The product `days * 86400` wraps, and so does the difference. -/
def rtcTimeToTm (time : BitVec 32) (tm : RtcTime) : RtcTime :=
  let days := time.toNat / 86400
  let time := time.toNat - days * 86400
  let year := 1970 + days / 365
  let left : Int := days - ((year - 1970) * 365 + leapsThruEndOf (year - 1) - leapsThruEndOf 1969)
  let back := left < 0
  let year := if back then year - 1 else year
  let left := if back then left + 365 + (if leapYear year then 1 else 0) else left
  let found := findMonth year 11 0 left
  let hour := time / 3600
  let time := time - hour * 3600
  let min := time / 60
  { tm with
    tmWday := BitVec.ofNat 32 ((days + 4) % 7)
    tmYear := BitVec.ofInt 32 (year - 1900)
    tmYday := BitVec.ofInt 32 (left + 1)
    tmMon := BitVec.ofNat 32 found.1
    tmMday := BitVec.ofInt 32 (found.2 + 1)
    tmHour := BitVec.ofNat 32 hour
    tmMin := BitVec.ofNat 32 min
    tmSec := BitVec.ofNat 32 (time - min * 60) }

/-- `rtc_valid_tm` returns 0. -/
def rtcValidTm (tm : RtcTime) : Bool :=
  ¬ (tm.tmYear.toInt < 70 ∨ tm.tmMon.toNat ≥ 12 ∨ tm.tmMday.toInt < 1 ∨
    tm.tmMday.toInt > rtcMonthDays tm.tmMon.toNat (tm.tmYear + 1900).toNat ∨
    tm.tmHour.toNat ≥ 24 ∨ tm.tmMin.toNat ≥ 60 ∨ tm.tmSec.toNat ≥ 60)

def mktime (year0 mon0 day hour min sec : BitVec 32) : BitVec 32 :=
  let mon := mon0 - 2
  let early := 0 ≥ mon.toInt
  let year := if early then year0 - 1 else year0
  let mon := if early then mon + 12 else mon
  ((((year / 4 - year / 100 + year / 400 + 367 * mon / 12 + day) + year * 365 - 719499) * 24
    + hour) * 60 + min) * 60 + sec

/-- `rtc_tm_to_time` -/
def rtcTmToTime (tm : RtcTime) : BitVec 32 :=
  mktime (tm.tmYear + 1900) (tm.tmMon + 1) tm.tmMday tm.tmHour tm.tmMin tm.tmSec

end Dingoo.Rtc
