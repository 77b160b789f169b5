/-
What the start-up timings of the SDRAM guarantee.

The period is rounded down before the division, so a quotient is never too small by more
than the fraction it dropped.  Four of the fields are read by the controller as one cycle
more than was written, and TRC is rounded up to odd cycles, which makes up for the
fraction.  TRAS has no such cycle: its quotient is written as it is, and it is too short
whenever it dropped anything.  The refresh constant has the cycle on the wrong side: it is
rounded up, so it is one unit too long unless it is limited.
-/
import Dingoo.Hwinit.Sdram
import Dingoo.Proofs.Cpufreq
import Mathlib.Algebra.Order.Field.Basic

namespace Dingoo.Sdram

open Cpufreq

variable {p : Params} {mclk : Nat} {t : Timing}

/-- The time required of each timing, in nanoseconds. -/
def required (p : Params) : Timing → Nat
  | .tras => p.tras
  | .rcd => p.rcd
  | .tpc => p.tpc
  | .trwl => p.trwl
  | .trc => p.tras + p.tpc

/-- The clock period in nanoseconds, exactly. -/
def period (mclk : Nat) : ℚ := 1000000000 / mclk

/-- The field of a timing holds its largest value. -/
def Saturated (dmcr : BitVec 32) (t : Timing) : Prop := (dmcr >>> t.bit) &&& t.mask = t.mask

/-- The time a DMCR value gives a timing is enough, or its field can hold no more. -/
def Meets (p : Params) (mclk : Nat) (dmcr : BitVec 32) (t : Timing) : Prop :=
  Saturated dmcr t ∨ (required p t : ℚ) ≤ cycles dmcr t * period mclk

/-- The refresh interval is short enough, or the shortest there is. -/
def RefreshMeets (p : Params) (mclk rtcor : Nat) : Prop :=
  rtcor = 1 ∨ (rtcor : ℚ) * 64 * period mclk ≤ p.tref

/-! ### Times and whole numbers -/

theorem le_mul_period_iff (hm : 0 < mclk) (time cycles : Nat) :
    (time : ℚ) ≤ cycles * period mclk ↔ time * mclk ≤ cycles * 1000000000 := by
  have hm' : (0 : ℚ) < mclk := by exact_mod_cast hm
  unfold period
  rw [mul_div_assoc', le_div_iff₀ hm']
  exact_mod_cast Iff.rfl

theorem mul_period_le_iff (hm : 0 < mclk) (time cycles : Nat) :
    (cycles : ℚ) * period mclk ≤ time ↔ cycles * 1000000000 ≤ time * mclk := by
  have hm' : (0 : ℚ) < mclk := by exact_mod_cast hm
  unfold period
  rw [mul_div_assoc', div_le_iff₀ hm']
  exact_mod_cast Iff.rfl

/-- One cycle more than the quotient by the rounded period is long enough. -/
theorem quotient_succ_enough (hm : 0 < mclk) (hns : 0 < 1000000000 / mclk) (time : Nat) :
    time * mclk < (time / (1000000000 / mclk) + 1) * 1000000000 := by
  have hlt : time < (time / (1000000000 / mclk) + 1) * (1000000000 / mclk) := by
    rw [Nat.mul_comm]
    exact Nat.lt_mul_div_succ time hns
  calc time * mclk
      < (time / (1000000000 / mclk) + 1) * (1000000000 / mclk) * mclk :=
        Nat.mul_lt_mul_of_pos_right hlt hm
    _ = (time / (1000000000 / mclk) + 1) * (1000000000 / mclk * mclk) := by ring
    _ ≤ (time / (1000000000 / mclk) + 1) * 1000000000 :=
        Nat.mul_le_mul_left _ (Nat.div_mul_le_self _ _)

/-! ### Fields -/

theorem cap_le (hi tmp : Nat) : cap hi tmp ≤ hi := by
  unfold cap
  split <;> omega

theorem cap_of_ne {hi tmp : Nat} (h : cap hi tmp ≠ hi) : cap hi tmp = tmp := by
  unfold cap at h ⊢
  split
  · next hgt => exact absurd (if_pos hgt) h
  · rfl

theorem field_le_mask (p : Params) (ns : Nat) (t : Timing) : field p ns t ≤ t.mask.toNat := by
  cases t with
  | tras =>
    have := cap_le 11 (if p.tras / ns < 4 then 4 else p.tras / ns)
    show cap 11 _ - 4 ≤ 7
    omega
  | rcd => exact cap_le 3 _
  | tpc => exact cap_le 7 _
  | trwl => exact cap_le 3 _
  | trc =>
    have := cap_le 14 (u32 (p.tras + p.tpc) / ns)
    show (cap 14 _ + 1) >>> 1 ≤ 7
    rw [Nat.shiftRight_eq_div_pow]
    omega

/-- What the last write leaves in DMCR. -/
def finalDmcr (p : Params) (ns : Nat) : BitVec 32 :=
  dmcrValue p ns ||| emcDmcrRfsh ||| emcDmcrMrset

theorem finalDmcr_eq (p : Params) (ns : Nat) :
    finalDmcr p ns = packTimings (geometry 12 9 1 0 ||| emcDmcrRfsh ||| emcDmcrMrset)
      (field p ns) := by
  have hbase : (geometry 12 9 1 0 ||| emcDmcrRfsh ||| emcDmcrMrset) &&& ~~~timingMask
      = geometry 12 9 1 0 ||| emcDmcrRfsh ||| emcDmcrMrset := by decide
  unfold packTimings
  rw [hbase]
  unfold finalDmcr dmcrValue
  generalize geometry 12 9 1 0 = base
  generalize emcDmcrRfsh = rfsh
  generalize emcDmcrMrset = mrset
  dsimp only
  generalize BitVec.ofNat 32 (field p ns .tras) <<< Timing.tras.bit = tras
  generalize BitVec.ofNat 32 (field p ns .rcd) <<< Timing.rcd.bit = rcd
  generalize BitVec.ofNat 32 (field p ns .tpc) <<< Timing.tpc.bit = tpc
  generalize BitVec.ofNat 32 (field p ns .trwl) <<< Timing.trwl.bit = trwl
  generalize BitVec.ofNat 32 (field p ns .trc) <<< Timing.trc.bit = trc
  ac_rfl

theorem finalDmcr_field (p : Params) (ns : Nat) (t : Timing) :
    ((finalDmcr p ns >>> t.bit) &&& t.mask).toNat = field p ns t := by
  rw [finalDmcr_eq]
  exact packTimings_field (field_le_mask p ns) _ t

theorem finalDmcr_meets_iff (hm : 0 < mclk) (ns : Nat) (t : Timing) :
    Meets p mclk (finalDmcr p ns) t ↔ field p ns t = t.mask.toNat ∨
      required p t * mclk ≤ t.decode (field p ns t) * 1000000000 := by
  unfold Meets Saturated cycles
  rw [le_mul_period_iff hm, ← BitVec.toNat_inj, finalDmcr_field]

theorem quotient_lt_decode (ns : Nat) (ht : t ≠ .tras) (hfield : field p ns t ≠ t.mask.toNat) :
    required p t / ns < t.decode (field p ns t) := by
  cases t with
  | tras => exact absurd rfl ht
  | rcd => exact Nat.lt_succ_of_le (Nat.le_of_eq (cap_of_ne hfield).symm)
  | tpc => exact Nat.lt_succ_of_le (Nat.le_of_eq (cap_of_ne hfield).symm)
  | trwl => exact Nat.lt_succ_of_le (Nat.le_of_eq (cap_of_ne hfield).symm)
  | trc =>
    have hrange := p.int_range
    have hsum : u32 (p.tras + p.tpc) = p.tras + p.tpc := Nat.mod_eq_of_lt (by omega)
    have hval : field p ns .trc = (cap 14 ((p.tras + p.tpc) / ns) + 1) / 2 := by
      show (cap 14 (u32 (p.tras + p.tpc) / ns) + 1) >>> 1 = _
      rw [hsum, Nat.shiftRight_eq_div_pow]
    rw [hval] at hfield ⊢
    have hcap : cap 14 ((p.tras + p.tpc) / ns) = (p.tras + p.tpc) / ns := by
      refine cap_of_ne fun h14 => hfield ?_
      rw [h14]
      decide
    show (p.tras + p.tpc) / ns < _ * 2 + 1
    rw [hcap]
    omega

theorem decode_tras (ns : Nat) :
    Timing.tras.decode (field p ns .tras) = cap 11 (max 4 (p.tras / ns)) := by
  have hmax : (if p.tras / ns < 4 then 4 else p.tras / ns) = max 4 (p.tras / ns) := by
    split <;> omega
  have hcap : 4 ≤ cap 11 (max 4 (p.tras / ns)) := by
    unfold cap
    split <;> omega
  show cap 11 (if p.tras / ns < 4 then 4 else p.tras / ns) - 4 + 4 = _
  rw [hmax]
  omega

/-! ### One clock -/

section

variable (hm : 0 < mclk) (hns : 0 < 1000000000 / mclk)

include hm hns

theorem meets_of_ne_tras (ht : t ≠ .tras) : Meets p mclk (finalDmcr p (1000000000 / mclk)) t := by
  rw [finalDmcr_meets_iff hm]
  by_cases hfield : field p (1000000000 / mclk) t = t.mask.toNat
  · exact Or.inl hfield
  · right
    refine (quotient_succ_enough hm hns (required p t)).le.trans ?_
    exact Nat.mul_le_mul_right _ (quotient_lt_decode _ ht hfield)

omit hns in
theorem meets_tras_iff :
    Meets p mclk (finalDmcr p (1000000000 / mclk)) .tras ↔
      11 ≤ p.tras / (1000000000 / mclk) ∨
        p.tras * mclk ≤ max 4 (p.tras / (1000000000 / mclk)) * 1000000000 := by
  rw [finalDmcr_meets_iff hm]
  have hdec := decode_tras (p := p) (1000000000 / mclk)
  rw [hdec]
  have hsat : field p (1000000000 / mclk) .tras = Timing.tras.mask.toNat ↔
      11 ≤ p.tras / (1000000000 / mclk) := by
    have h4 : field p (1000000000 / mclk) .tras + 4
        = cap 11 (max 4 (p.tras / (1000000000 / mclk))) := hdec
    show field p (1000000000 / mclk) .tras = 7 ↔ _
    unfold cap at h4
    split at h4 <;> omega
  rw [hsat]
  refine or_congr_right' fun hlt => ?_
  have hcap : cap 11 (max 4 (p.tras / (1000000000 / mclk)))
      = max 4 (p.tras / (1000000000 / mclk)) := by
    unfold cap
    rw [if_neg (by omega)]
  rw [hcap]
  rfl

omit hns in
theorem refreshMeets_iff_le (rtcor : Nat) : RefreshMeets p mclk rtcor ↔
    rtcor = 1 ∨ rtcor * 64 * 1000000000 ≤ p.tref * mclk := by
  unfold RefreshMeets
  rw [← mul_period_le_iff hm]
  push_cast
  rfl

theorem refreshMeets_iff :
    RefreshMeets p mclk (rtcorValue p (1000000000 / mclk)) ↔
      p.tref / (1000000000 / mclk) < 64 ∨ 255 * 64 * 1000000000 ≤ p.tref * mclk := by
  have hround := quotient_succ_enough hm hns p.tref
  have hval : rtcorValue p (1000000000 / mclk)
      = cap 255 (p.tref / (1000000000 / mclk) / 64 + 1) := rfl
  rw [refreshMeets_iff_le hm, hval]
  generalize p.tref / (1000000000 / mclk) = quot at hround ⊢
  unfold cap
  by_cases hlim : quot / 64 + 1 > 255
  · rw [if_pos hlim]
    omega
  · -- not limited: the constant is one unit above the quotient
    rw [if_neg hlim]
    omega

end

/-! ### The function -/

theorem sdramInit_eq {cpuClk : Nat} {cpccr : BitVec 32} (hclk : memClk cpuClk cpccr = some mclk) :
    ∃ ws, sdramInit p cpuClk cpccr = some ws ∧
      lastDmcr ws = some (finalDmcr p (1000000000 / mclk)) ∧
      lastRtcor ws = some (rtcorValue p (1000000000 / mclk)) := by
  unfold sdramInit
  rw [hclk]
  exact ⟨_, rfl, rfl, rfl⟩

/-- **Four of the timings are always met; TRAS is met exactly when its field is saturated or
the cycles left by the two divisions, four at least, still last as long, and the refresh
interval exactly when its constant is limited on either side.** -/
theorem sdramInit_timings (p : Params) {cpuClk : Nat} {cpccr : BitVec 32} {mclk : Nat}
    (hclk : memClk cpuClk cpccr = some mclk) (hlow : 1000000 ≤ mclk) (hhigh : mclk ≤ 200000000) :
    ∃ ws dmcr rtcor, sdramInit p cpuClk cpccr = some ws ∧ lastDmcr ws = some dmcr ∧
      lastRtcor ws = some rtcor ∧
      (∀ t, t ≠ .tras → Meets p mclk dmcr t) ∧
      (Meets p mclk dmcr .tras ↔ 11 ≤ p.tras / (1000000000 / mclk) ∨
        p.tras * mclk ≤ max 4 (p.tras / (1000000000 / mclk)) * 1000000000) ∧
      (RefreshMeets p mclk rtcor ↔ p.tref / (1000000000 / mclk) < 64 ∨
        255 * 64 * 1000000000 ≤ p.tref * mclk) := by
  have hm : 0 < mclk := by omega
  have hns : 0 < 1000000000 / mclk := Nat.div_pos (by omega) hm
  obtain ⟨ws, hws, hdmcr, hrtcor⟩ := sdramInit_eq (p := p) hclk
  exact ⟨ws, _, _, hws, hdmcr, hrtcor, fun t ht => meets_of_ne_tras hm hns ht,
    meets_tras_iff hm, refreshMeets_iff hm hns⟩

/-- TRAS of 40 ns and a refresh period of 600 ns at 100 MHz: four cycles, and RTCOR 1. -/
theorem sdramInit_timings_met :
    memClk 300000000 0x2000 = some 100000000 ∧
    ∃ ws dmcr rtcor,
      sdramInit ⟨40, 20, 20, 7, 600, by decide⟩ 300000000 0x2000 = some ws ∧
      lastDmcr ws = some dmcr ∧ lastRtcor ws = some rtcor ∧
      (∀ t, Meets ⟨40, 20, 20, 7, 600, by decide⟩ 100000000 dmcr t) ∧
      RefreshMeets ⟨40, 20, 20, 7, 600, by decide⟩ 100000000 rtcor := by
  have hclk : memClk 300000000 0x2000 = some 100000000 := by decide
  obtain ⟨ws, dmcr, rtcor, hws, hdmcr, hrtcor, hrest, htras, hrefresh⟩ :=
    sdramInit_timings ⟨40, 20, 20, 7, 600, by decide⟩ hclk (by decide) (by decide)
  refine ⟨hclk, ws, dmcr, rtcor, hws, hdmcr, hrtcor, fun t => ?_, hrefresh.mpr (by decide)⟩
  by_cases ht : t = .tras
  · rw [ht]
    exact htras.mpr (by decide)
  · exact hrest t ht

/-- The configured values at 112 MHz: TRAS is 5 cycles, 44.6 ns for 45, and the refresh
constant 31, 17.7 us for 15.6. -/
theorem sdramInit_timings_config :
    memClk 336000000 0x2000 = some 112000000 ∧
    (sdramInit config 336000000 0x2000).bind lastDmcr = some 0x059a3211 ∧
    (sdramInit config 336000000 0x2000).bind lastRtcor = some 31 ∧
    ¬ Meets config 112000000 0x059a3211 .tras ∧ ¬ RefreshMeets config 112000000 31 := by
  refine ⟨by decide, by decide, by decide, ?_, ?_⟩
  · rintro (hsat | htime)
    · exact absurd hsat (by unfold Saturated; decide)
    · rw [le_mul_period_iff (by decide)] at htime
      exact absurd htime (by decide)
  · rw [refreshMeets_iff_le (by decide)]
    decide

end Dingoo.Sdram
