/-
Dates and seconds: `rtc_time_to_tm` against `rtc_tm_to_time`.

Years follow each other from 1970 on, and months in a year, so a date is a number of days.
`rtc_time_to_tm` guesses the year and steps back; `mktime` lets the year begin in March.
Both count the same days.
-/
import Dingoo.Lib.Intervals
import Dingoo.Proofs.RtcReads

namespace Dingoo.Rtc

open Dingoo.Lib

variable {tm tm' : RtcTime} {year mon : Nat}

/-! ### The calendar -/

def yearDays (n : Nat) : Nat := 365 + if leapYear (1970 + n) then 1 else 0

def RtcTime.fullYear (tm : RtcTime) : Nat := (tm.tmYear + 1900).toNat

/-- The days before the date since the start of 1970. -/
def RtcTime.days (tm : RtcTime) : Nat :=
  blockStart yearDays (tm.fullYear - 1970) +
    (blockStart (rtcMonthDays · tm.fullYear) tm.tmMon.toNat + (tm.tmMday.toNat - 1))

def RtcTime.clock (tm : RtcTime) : Nat :=
  tm.tmHour.toNat * 3600 + tm.tmMin.toNat * 60 + tm.tmSec.toNat

def RtcTime.seconds (tm : RtcTime) : Nat := tm.days * 86400 + tm.clock

theorem leapsThruEndOf_succ (n : Nat) :
    leapsThruEndOf (n + 1) = leapsThruEndOf n + if leapYear (n + 1) then 1 else 0 := by
  unfold leapsThruEndOf leapYear
  simp only [Bool.or_eq_true, Bool.and_eq_true, decide_eq_true_eq]
  split <;> omega

theorem yearStart_eq (n : Nat) :
    (blockStart yearDays n : Int) = 365 * n + leapsThruEndOf (1969 + n) - 477 := by
  induction n with
  | zero => rfl
  | succ n ih =>
    rw [blockStart, show 1969 + (n + 1) = 1969 + n + 1 from rfl, leapsThruEndOf_succ, yearDays,
      show 1970 + n = 1969 + n + 1 by omega]
    push_cast
    omega

theorem yearDay_eq (days : Nat) :
    (blockStart yearDays ((yearDay days).1 - 1970) : Int) + (yearDay days).2 = days := by
  have hstart := yearStart_eq (days / 365)
  have h1969 : leapsThruEndOf 1969 = 477 := rfl
  unfold yearDay
  dsimp only
  rw [show 1970 + days / 365 - 1 = 1969 + days / 365 by omega, h1969]
  split
  · -- the guess was a year too late
    rename_i hback
    obtain ⟨n, hn⟩ : ∃ n, days / 365 = n + 1 := by
      refine Nat.exists_eq_succ_of_ne_zero fun hzero => ?_
      rw [hzero, h1969] at hback
      push_cast at hback
      omega
    rw [hn] at hstart hback ⊢
    rw [blockStart, yearDays] at hstart
    rw [show 1969 + (n + 1) - 1970 = n by omega, show 1969 + (n + 1) = 1970 + n by omega] at *
    push_cast at *
    omega
  · rw [Nat.add_sub_cancel_left]
    push_cast at *
    omega

theorem findMonth_eq (year : Nat) : ∀ (n month : Nat) (days : Int),
    (blockStart (rtcMonthDays · year) (findMonth year n month days).1 : Int) +
      (findMonth year n month days).2 = blockStart (rtcMonthDays · year) month + days := by
  intro n
  induction n with
  | zero => intro month days; rfl
  | succ n ih =>
    intro month days
    rw [findMonth]
    split
    · rfl
    · rw [ih, blockStart]
      push_cast
      omega

theorem seconds_rtcTimeToTm (time : BitVec 32) (tm : RtcTime) :
    (rtcTimeToTm time tm).seconds = time.toNat := by
  have hdays := yearDay_eq (time.toNat / 86400)
  obtain ⟨year, mon, mday, left, hyear, hfound, hbounds, -, hfull, hmon, hmday⟩ :=
    date_found time tm
  have hmonth := findMonth_eq year 11 0 left
  rw [hfound] at hmonth
  rw [hyear] at hdays
  dsimp only at hmonth hdays
  have hle := rtcMonthDays_le mon year
  have hdate : (rtcTimeToTm time tm).days = time.toNat / 86400 := by
    rw [RtcTime.days, RtcTime.fullYear, hfull, hmon, hmday, BitVec.toNat_ofNat]
    change _ = ((0 : Nat) : Int) + left at hmonth
    omega
  have hclock : (rtcTimeToTm time tm).clock = time.toNat % 86400 := by
    change (BitVec.ofNat 32 _).toNat * 3600 + (BitVec.ofNat 32 _).toNat * 60 +
      (BitVec.ofNat 32 _).toNat = _
    rw [BitVec.toNat_ofNat, BitVec.toNat_ofNat, BitVec.toNat_ofNat]
    have hlt := time.isLt
    omega
  rw [RtcTime.seconds, hdate, hclock]
  exact Nat.div_add_mod' _ _

/-! ### `mktime` -/

/-- `mktime` lets the year begin in March. -/
theorem monthStart_eq (year : Nat) (hmon : mon < 12) :
    blockStart (rtcMonthDays · year) mon =
      if mon ≤ 1 then 367 * (mon + 11) / 12 - 336
      else 367 * (mon - 1) / 12 + 29 + if leapYear year then 1 else 0 := by
  unfold rtcMonthDays
  have htable : ∀ leap : Bool, ∀ m < 12,
      blockStart (fun m => rtcDaysInMonth.getD m 0 + if leap && decide (m = 1) then 1 else 0) m =
        if m ≤ 1 then 367 * (m + 11) / 12 - 336
        else 367 * (m - 1) / 12 + 29 + if leap then 1 else 0 := by decide
  exact htable _ mon hmon

theorem udiv_ofNat {x y : Nat} (hx : x < 2 ^ 32) (hy : y < 2 ^ 32) :
    BitVec.ofNat 32 x / BitVec.ofNat 32 y = BitVec.ofNat 32 (x / y) := by
  apply BitVec.eq_of_toNat_eq
  rw [BitVec.toNat_udiv, BitVec.toNat_ofNat, BitVec.toNat_ofNat, BitVec.toNat_ofNat,
    Nat.mod_eq_of_lt hx, Nat.mod_eq_of_lt hy,
    Nat.mod_eq_of_lt (Nat.lt_of_le_of_lt (Nat.div_le_self x y) hx)]

theorem mktimeDays_eq (days : Nat) {day : BitVec 32} (hyear : year < 2 ^ 32) (hmon : mon ≤ 12)
    (h : days + 719499 + year / 100 =
      year / 4 + year / 400 + 367 * mon / 12 + day.toNat + year * 365) :
    BitVec.ofNat 32 year / 4 - BitVec.ofNat 32 year / 100 + BitVec.ofNat 32 year / 400 +
      367 * BitVec.ofNat 32 mon / 12 + day + BitVec.ofNat 32 year * 365 - 719499 =
    BitVec.ofNat 32 days := by
  have h4 := udiv_ofNat hyear (by decide : 4 < 2 ^ 32)
  have h100 := udiv_ofNat hyear (by decide : 100 < 2 ^ 32)
  have h400 := udiv_ofNat hyear (by decide : 400 < 2 ^ 32)
  have h12 := udiv_ofNat (by omega : 367 * mon < 2 ^ 32) (by decide : 12 < 2 ^ 32)
  have hwrap := congrArg (BitVec.ofNat 32) h
  simp only [BitVec.ofNat_add, BitVec.ofNat_mul, BitVec.ofNat_toNat, BitVec.setWidth_eq,
    ← h4, ← h100, ← h400, ← h12] at hwrap
  grind

theorem valid_fields (hvalid : rtcValidTm tm = true) :
    (1970 ≤ tm.fullYear ∧ tm.tmMon.toNat < 12) ∧ (1 ≤ tm.tmMday.toNat ∧
      tm.tmMday.toNat - 1 < rtcMonthDays tm.tmMon.toNat tm.fullYear) ∧
    tm.tmHour.toNat < 24 ∧ tm.tmMin.toNat < 60 ∧ tm.tmSec.toNat < 60 := by
  have hyear : tm.fullYear = (tm.tmYear.toNat + 1900) % 2 ^ 32 := BitVec.toNat_add ..
  unfold rtcValidTm at hvalid
  simp only [decide_eq_true_eq] at hvalid
  change ¬ (_ ∨ _ ∨ _ ∨ _ > (rtcMonthDays _ tm.fullYear : Int) ∨ _) at hvalid
  rw [BitVec.toInt_eq_toNat_cond, BitVec.toInt_eq_toNat_cond] at hvalid
  have hlt := tm.tmYear.isLt
  have hlt' := tm.tmMday.isLt
  split at hvalid <;> split at hvalid <;> omega

theorem days_eq (hyear : tm.fullYear = year + 1) (hlo : 1969 ≤ year)
    (hmon : tm.tmMon.toNat < 12) (hmday : 1 ≤ tm.tmMday.toNat) :
    (tm.tmMon.toNat ≤ 1 → tm.days + 719499 + year / 100 = year / 4 + year / 400 +
      367 * (tm.tmMon.toNat + 11) / 12 + tm.tmMday.toNat + year * 365) ∧
    (¬ tm.tmMon.toNat ≤ 1 → tm.days + 719499 + (year + 1) / 100 = (year + 1) / 4 +
      (year + 1) / 400 + 367 * (tm.tmMon.toNat - 1) / 12 + tm.tmMday.toNat + (year + 1) * 365) := by
  have hstart := yearStart_eq (year + 1 - 1970)
  have hleap := leapsThruEndOf_succ year
  have hmonths := monthStart_eq tm.fullYear hmon
  rw [show 1969 + (year + 1 - 1970) = year by omega] at hstart
  rw [RtcTime.days]
  rw [hyear] at hmonths ⊢
  unfold leapsThruEndOf at hstart hleap
  generalize year / 4 = a, year / 100 = b, year / 400 = c, (year + 1) / 4 = a',
    (year + 1) / 100 = b', (year + 1) / 400 = c' at *
  constructor
  · intro hle
    rw [if_pos hle] at hmonths
    omega
  · intro hle
    rw [if_neg hle] at hmonths
    generalize 367 * (tm.tmMon.toNat - 1) / 12 = m at *
    by_cases hl : leapYear (year + 1) = true
    · rw [if_pos hl] at hmonths hleap
      omega
    · rw [if_neg hl] at hmonths hleap
      omega

theorem rtcTmToTime_eq (hvalid : rtcValidTm tm = true) :
    rtcTmToTime tm = BitVec.ofNat 32 tm.seconds := by
  obtain ⟨⟨hyear, hmon⟩, ⟨hmday, -⟩, -⟩ := valid_fields hvalid
  obtain ⟨year, hsucc⟩ : ∃ year, tm.fullYear = year + 1 := ⟨tm.fullYear - 1, by omega⟩
  have hlt : tm.fullYear < 2 ^ 32 := BitVec.isLt _
  have hfull : tm.tmYear + 1900 = BitVec.ofNat 32 (year + 1) := by
    rw [← hsucc, RtcTime.fullYear, BitVec.ofNat_toNat, BitVec.setWidth_eq]
  have hprev : BitVec.ofNat 32 (year + 1) - 1 = BitVec.ofNat 32 year := by
    rw [BitVec.ofNat_add]
    exact BitVec.add_sub_cancel _ _
  -- the months of `mktime`
  have htable : ∀ m < 12, (0 ≥ (BitVec.ofNat 32 m + 1 - 2).toInt ↔ m ≤ 1) ∧
      (if m ≤ 1 then BitVec.ofNat 32 m + 1 - 2 + 12 else BitVec.ofNat 32 m + 1 - 2) =
        BitVec.ofNat 32 (if m ≤ 1 then m + 11 else m - 1) := by decide
  obtain ⟨hearly, hmonth⟩ := htable tm.tmMon.toNat hmon
  rw [BitVec.ofNat_toNat, BitVec.setWidth_eq] at hearly hmonth
  have hdays : ∀ d, d = BitVec.ofNat 32 tm.days →
      ((d * 24 + tm.tmHour) * 60 + tm.tmMin) * 60 + tm.tmSec = BitVec.ofNat 32 tm.seconds := by
    intro d hd
    rw [hd, RtcTime.seconds, RtcTime.clock]
    simp only [BitVec.ofNat_add, BitVec.ofNat_mul, BitVec.ofNat_toNat, BitVec.setWidth_eq]
    grind
  obtain ⟨hjan, hmar⟩ := days_eq hsucc (by omega) hmon hmday
  unfold rtcTmToTime mktime
  dsimp only
  refine hdays _ ?_
  rw [hfull, hprev]
  simp only [hearly, hmonth]
  by_cases hle : tm.tmMon.toNat ≤ 1
  · rw [if_pos hle, if_pos hle]
    exact mktimeDays_eq _ (by omega) (by omega) (hjan hle)
  · rw [if_neg hle, if_neg hle]
    exact mktimeDays_eq _ (by omega) (by omega) (hmar hle)

/-! ### Dates and seconds -/

def RtcTime.date (tm : RtcTime) : List (BitVec 32) :=
  [tm.tmSec, tm.tmMin, tm.tmHour, tm.tmMday, tm.tmMon, tm.tmYear]

theorem seconds_congr (h : tm.date = tm'.date) : tm.seconds = tm'.seconds := by
  simp only [RtcTime.date, List.cons.injEq, and_true] at h
  obtain ⟨hsec, hmin, hhour, hmday, hmon, hyear⟩ := h
  unfold RtcTime.seconds RtcTime.days RtcTime.clock RtcTime.fullYear
  rw [hsec, hmin, hhour, hmday, hmon, hyear]

theorem monthDay_lt {d : Nat} (hmon : mon < 12) (hd : d < rtcMonthDays mon year)
    (hyear : 1970 ≤ year) :
    blockStart (rtcMonthDays · year) mon + d < yearDays (year - 1970) := by
  have hnext := blockStart_mono (rtcMonthDays · year) (Nat.succ_le_of_lt hmon)
  have hlast : blockStart (rtcMonthDays · year) 12 = 365 + if leapYear year then 1 else 0 := by
    unfold rtcMonthDays
    cases leapYear year <;> rfl
  rw [blockStart] at hnext
  rw [yearDays, Nat.add_sub_cancel' hyear]
  omega

theorem date_of_seconds (hvalid : rtcValidTm tm = true) (hvalid' : rtcValidTm tm' = true)
    (h : tm.seconds = tm'.seconds) : tm.date = tm'.date := by
  obtain ⟨⟨hyear, hmon⟩, ⟨hfirst, hmday⟩, hhour, hmin, hsec⟩ := valid_fields hvalid
  obtain ⟨⟨hyear', hmon'⟩, ⟨hfirst', hmday'⟩, hhour', hmin', hsec'⟩ := valid_fields hvalid'
  unfold RtcTime.seconds RtcTime.clock at h
  have hdays : tm.days = tm'.days := by omega
  obtain ⟨hy, hrest⟩ := block_unique (monthDay_lt hmon hmday hyear)
    (monthDay_lt hmon' hmday' hyear') hdays
  have hfull : tm.fullYear = tm'.fullYear := by omega
  rw [← hfull] at hrest hmday'
  obtain ⟨hm, hd⟩ := @block_unique (rtcMonthDays · tm.fullYear) _ _ _ _ hmday hmday' hrest
  have hyear_eq : tm.tmYear = tm'.tmYear := add_right_cancel (BitVec.eq_of_toNat_eq hfull)
  unfold RtcTime.date
  rw [hyear_eq, BitVec.eq_of_toNat_eq hm,
    BitVec.eq_of_toNat_eq (show tm.tmMday.toNat = tm'.tmMday.toNat by omega),
    BitVec.eq_of_toNat_eq (show tm.tmHour.toNat = tm'.tmHour.toNat by omega),
    BitVec.eq_of_toNat_eq (show tm.tmMin.toNat = tm'.tmMin.toNat by omega),
    BitVec.eq_of_toNat_eq (show tm.tmSec.toNat = tm'.tmSec.toNat by omega)]

/-- **Times and dates.**  A value of the register is written as the valid date of that second and
read back as it was; a valid date comes back if it lies before the second `2 ^ 32`, and only
then. -/
theorem rtcTime_roundTrip :
    (∀ time tm, rtcValidTm (rtcTimeToTm time tm) = true ∧
      (rtcTimeToTm time tm).seconds = time.toNat ∧
      rtcTmToTime (rtcTimeToTm time tm) = time) ∧
    ∀ tm old, rtcValidTm tm = true →
      ((rtcTimeToTm (rtcTmToTime tm) old).date = tm.date ↔ tm.seconds < 2 ^ 32) := by
  constructor
  · intro time tm
    have hvalid := rtcValidTm_rtcTimeToTm time tm
    refine ⟨hvalid, seconds_rtcTimeToTm time tm, ?_⟩
    rw [rtcTmToTime_eq hvalid, seconds_rtcTimeToTm, BitVec.ofNat_toNat,
      BitVec.setWidth_eq]
  · intro tm old hvalid
    have hback := seconds_rtcTimeToTm (rtcTmToTime tm) old
    rw [rtcTmToTime_eq hvalid, BitVec.toNat_ofNat] at *
    constructor
    · intro hdate
      rw [← seconds_congr hdate, hback]
      exact Nat.mod_lt _ (by decide)
    · intro hlt
      rw [Nat.mod_eq_of_lt hlt] at hback
      exact date_of_seconds (rtcValidTm_rtcTimeToTm _ _) hvalid hback

end Dingoo.Rtc
