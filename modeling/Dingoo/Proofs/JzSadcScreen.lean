/-
Screen coordinates of the touch screen.

`toScreen_fits_iff` says when a reading, clamped at two bounds and scaled by a range, stays
on the screen and grows with the reading: if the range does not start above the lower
bound, where the subtraction would wrap around, and ends so close to the upper one that
the quotient is not larger than the screen.  For `x` bounds and range are the same.  For
`y` the bounds are those of `x`, and the built-in calibration already starts its range
above them.
-/
import Dingoo.Linux.JzSadc
import Mathlib.Data.Nat.Basic

namespace Dingoo.Ts

variable {v : BitVec 32}

/-- Over the readings of twelve bits the result grows with the reading, up to `size`. -/
def Fits (f : BitVec 32 → Option (BitVec 32)) (size : BitVec 32) : Prop :=
  ∀ a b, a ≤ b → b ≤ 4095 →
    ∃ ra rb, f a = some ra ∧ f b = some rb ∧ ra ≤ rb ∧ rb ≤ size

/-- A calibration, as integers. -/
structure Calibrated (ts : JzTs) : Prop where
  minx_pos : 0 < ts.minx.toInt
  minx_lt : ts.minx.toInt < ts.maxx.toInt
  maxx_le : ts.maxx.toInt ≤ 4095
  miny_pos : 0 < ts.miny.toInt
  miny_lt : ts.miny.toInt < ts.maxy.toInt
  maxy_le : ts.maxy.toInt ≤ 4095

theorem toNat_of_toInt_pos (h : 0 < v.toInt) : (v.toNat : Int) = v.toInt := by
  have hcond := BitVec.toInt_eq_toNat_cond v
  split at hcond
  · exact hcond.symm
  · omega

/-! ### One scaled reading -/

section
variable {min max size : BitVec 32} (hlt : min.toNat < max.toNat) (hmax : max.toNat ≤ 4095)
  (hsize : size.toNat ≤ 480)
include hlt

theorem quot_range (a : BitVec 32) :
    ∃ r, quot a (max - min) = some r ∧ r.toNat = a.toNat / (max.toNat - min.toNat) := by
  have hsub : (max - min).toNat = max.toNat - min.toNat :=
    BitVec.toNat_sub_of_le (BitVec.le_def.mpr (Nat.le_of_lt hlt))
  have hne : max - min ≠ 0 := by
    intro h
    rw [h] at hsub
    exact absurd hsub (Nat.ne_of_lt (Nat.sub_pos_of_lt hlt))
  refine ⟨a / (max - min), if_neg hne, ?_⟩
  rw [BitVec.toNat_udiv, hsub]

include hmax hsize

theorem scaled_inside (hmin : min.toNat ≤ v.toNat) (hv : v.toNat ≤ 4095) :
    ∃ r, quot ((v - min) * size) (max - min) = some r ∧
      r.toNat = (v.toNat - min.toNat) * size.toNat / (max.toNat - min.toNat) := by
  obtain ⟨r, hr, hval⟩ := quot_range hlt ((v - min) * size)
  have hsmall : (v.toNat - min.toNat) * size.toNat ≤ 4095 * 480 :=
    Nat.mul_le_mul (by omega) hsize
  have hmul : ((v - min) * size).toNat = (v.toNat - min.toNat) * size.toNat := by
    rw [BitVec.toNat_mul, BitVec.toNat_sub_of_le (BitVec.le_def.mpr hmin)]
    exact Nat.mod_eq_of_lt (by omega)
  rw [hmul] at hval
  exact ⟨r, hr, hval⟩

theorem scaled_below (hmin : v.toNat < min.toNat) (hpos : 0 < size.toNat) :
    ∃ r, quot ((v - min) * size) (max - min) = some r ∧ size.toNat < r.toNat := by
  obtain ⟨r, hr, hval⟩ := quot_range hlt ((v - min) * size)
  have hsmall : (min.toNat - v.toNat) * size.toNat ≤ 4095 * 480 :=
    Nat.mul_le_mul (by omega) hsize
  have hneg : v - min = -(min - v) := by
    rw [BitVec.neg_sub, BitVec.sub_eq_add_neg, BitVec.add_comm]
  have hmul : ((v - min) * size).toNat = 4294967296 - (min.toNat - v.toNat) * size.toNat := by
    have hprod : ((min - v) * size).toNat = (min.toNat - v.toNat) * size.toNat := by
      rw [BitVec.toNat_mul, BitVec.toNat_sub_of_le (BitVec.le_def.mpr (Nat.le_of_lt hmin))]
      exact Nat.mod_eq_of_lt (by omega)
    have hprod_pos : 0 < (min.toNat - v.toNat) * size.toNat := Nat.mul_pos (by omega) hpos
    rw [hneg, BitVec.neg_mul, BitVec.toNat_neg, hprod]
    exact Nat.mod_eq_of_lt (by omega)
  refine ⟨r, hr, ?_⟩
  rw [hval, hmul, Nat.lt_iff_add_one_le, Nat.le_div_iff_mul_le (by omega)]
  have hrange : (size.toNat + 1) * (max.toNat - min.toNat) ≤ 481 * 4095 :=
    Nat.mul_le_mul (by omega) (by omega)
  omega

end

/-! ### All readings -/

section
variable {lo hi min max size : BitVec 32} (hbounds : lo.toNat < hi.toNat)
  (hhi : hi.toNat ≤ 4095) (hlt : min.toNat < max.toNat) (hmax : max.toNat ≤ 4095)
  (hpos : 0 < size.toNat) (hsize : size.toNat ≤ 480)

theorem toScreen_inside (hlo : lo.toNat ≤ v.toNat) (hhi : v.toNat ≤ hi.toNat) :
    toScreen lo hi min max size v = quot ((v - min) * size) (max - min) := by
  have h1 : ¬ v < lo := fun h => absurd (BitVec.lt_def.mp h) (by omega)
  have h2 : ¬ v > hi := fun h => absurd (BitVec.lt_def.mp h) (by omega)
  unfold toScreen
  simp only [if_neg h1, if_neg h2]

theorem toScreen_below (hlo : v.toNat < lo.toNat) (hmin : min.toNat ≤ hi.toNat) :
    toScreen lo hi min max size v = quot ((min - min) * size) (max - min) := by
  have h2 : ¬ min > hi := fun h => absurd (BitVec.lt_def.mp h) (by omega)
  unfold toScreen
  simp only [if_pos (BitVec.lt_def.mpr hlo), if_neg h2]

theorem toScreen_above (hlo : lo.toNat ≤ v.toNat) (hhi : hi.toNat < v.toNat) :
    toScreen lo hi min max size v = quot ((max - min) * size) (max - min) := by
  have h1 : ¬ v < lo := fun h => absurd (BitVec.lt_def.mp h) (by omega)
  have h2 : v > hi := BitVec.lt_def.mpr hhi
  unfold toScreen
  simp only [if_neg h1, if_pos h2]

/-- The result for a reading, where the range starts at or below the lower bound. -/
def level (lo hi min max size : Nat) (v : Nat) : Nat :=
  if v < lo then 0 else if v ≤ hi then (v - min) * size / (max - min) else size

include hlt

theorem level_le (hend : size.toNat * (hi.toNat - min.toNat) <
    (size.toNat + 1) * (max.toNat - min.toNat)) (v : Nat) :
    level lo.toNat hi.toNat min.toNat max.toNat size.toNat v ≤ size.toNat := by
  unfold level
  split_ifs with hlo hhigh
  · exact Nat.zero_le _
  · rw [← Nat.lt_succ_iff, Nat.div_lt_iff_lt_mul (by omega)]
    refine Nat.lt_of_le_of_lt ?_ hend
    rw [Nat.mul_comm]
    exact Nat.mul_le_mul_left _ (Nat.sub_le_sub_right hhigh _)
  · exact Nat.le_refl _

include hbounds

theorem level_mono (hend : size.toNat * (hi.toNat - min.toNat) <
    (size.toNat + 1) * (max.toNat - min.toNat)) {a b : Nat} (hab : a ≤ b) :
    level lo.toNat hi.toNat min.toNat max.toNat size.toNat a ≤
      level lo.toNat hi.toNat min.toNat max.toNat size.toNat b := by
  by_cases hb : b ≤ hi.toNat
  · unfold level
    split_ifs with halo hblo
    · exact Nat.le_refl _
    · exact Nat.zero_le _
    · omega
    · exact Nat.div_le_div_right (Nat.mul_le_mul_right _ (Nat.sub_le_sub_right hab _))
    · omega
    · omega
  · have hlast : level lo.toNat hi.toNat min.toNat max.toNat size.toNat b = size.toNat := by
      unfold level
      rw [if_neg (by omega), if_neg hb]
    rw [hlast]
    exact level_le hlt hend a

include hhi hmax hsize

theorem toScreen_level (hmin : min.toNat ≤ lo.toNat) (v : BitVec 32) :
    ∃ r, toScreen lo hi min max size v = some r ∧
      r.toNat = level lo.toNat hi.toNat min.toNat max.toNat size.toNat v.toNat := by
  unfold level
  by_cases hlo : v.toNat < lo.toNat
  · obtain ⟨r, hr, hval⟩ := scaled_inside hlt hmax hsize (Nat.le_refl min.toNat) (by omega)
    rw [toScreen_below hlo (by omega), if_pos hlo]
    refine ⟨r, hr, ?_⟩
    rw [hval, Nat.sub_self, Nat.zero_mul, Nat.zero_div]
  · rw [if_neg hlo]
    by_cases hhigh : v.toNat ≤ hi.toNat
    · rw [toScreen_inside (Nat.le_of_not_lt hlo) hhigh, if_pos hhigh]
      exact scaled_inside hlt hmax hsize (by omega) (by omega)
    · obtain ⟨r, hr, hval⟩ := scaled_inside hlt hmax hsize (Nat.le_of_lt hlt) hmax
      rw [toScreen_above (Nat.le_of_not_lt hlo) (Nat.lt_of_not_le hhigh), if_neg hhigh]
      refine ⟨r, hr, ?_⟩
      rw [hval, Nat.mul_div_cancel_left _ (by omega)]

include hpos

/-- **When the readings stay on the screen.** -/
theorem toScreen_fits_iff :
    Fits (toScreen lo hi min max size) size ↔
      min.toNat ≤ lo.toNat ∧
        size.toNat * (hi.toNat - min.toNat) < (size.toNat + 1) * (max.toNat - min.toNat) := by
  constructor
  · intro hfits
    have hmin : min.toNat ≤ lo.toNat := by
      by_contra hbelow
      obtain ⟨r, hr, hlarge⟩ := scaled_below hlt hmax hsize (Nat.lt_of_not_le hbelow) hpos
      obtain ⟨-, rb, -, hrb, -, hle⟩ := hfits lo lo (BitVec.le_refl lo)
        (BitVec.le_def.mpr (Nat.le_trans (Nat.le_of_lt hbounds) hhi))
      rw [toScreen_inside (Nat.le_refl _) (Nat.le_of_lt hbounds), hr] at hrb
      cases hrb
      exact absurd (BitVec.le_def.mp hle) (Nat.not_le_of_lt hlarge)
    refine ⟨hmin, ?_⟩
    obtain ⟨r, hr, hval⟩ := scaled_inside hlt hmax hsize
      (Nat.le_trans hmin (Nat.le_of_lt hbounds)) hhi
    obtain ⟨-, rb, -, hrb, -, hle⟩ := hfits hi hi (BitVec.le_refl hi) (BitVec.le_def.mpr hhi)
    rw [toScreen_inside (Nat.le_of_lt hbounds) (Nat.le_refl _), hr] at hrb
    cases hrb
    have hle := BitVec.le_def.mp hle
    rw [hval, ← Nat.lt_succ_iff, Nat.div_lt_iff_lt_mul (by omega)] at hle
    rwa [Nat.mul_comm]
  · rintro ⟨hmin, hend⟩ a b hab _
    obtain ⟨ra, hra, hvala⟩ := toScreen_level hbounds hhi hlt hmax hsize hmin a
    obtain ⟨rb, hrb, hvalb⟩ := toScreen_level hbounds hhi hlt hmax hsize hmin b
    refine ⟨ra, rb, hra, hrb, ?_, ?_⟩
    · rw [BitVec.le_def, hvala, hvalb]
      exact level_mono hbounds hlt hend (BitVec.le_def.mp hab)
    · rw [BitVec.le_def, hvalb]
      exact level_le hlt hend b.toNat

end

/-! ### The two axes -/

theorem transformToScreenX_fits {ts : JzTs} (h : ts.minx = 0 ∨ Calibrated ts) :
    Fits (transformToScreenX ts) SCREEN_X := by
  rcases h with hdefault | hcal
  · have hfun : transformToScreenX ts = toScreen TSMINX TSMAXX TSMINX TSMAXX SCREEN_X := by
      funext x
      exact if_neg (not_not.mpr hdefault)
    rw [hfun, toScreen_fits_iff (by decide) (by decide) (by decide) (by decide) (by decide)
      (by decide)]
    decide
  · have hfun : transformToScreenX ts = toScreen ts.minx ts.maxx ts.minx ts.maxx SCREEN_X := by
      funext x
      refine if_pos fun hzero => ?_
      have := hcal.minx_pos
      rw [hzero] at this
      exact absurd this (by decide)
    have hmin := toNat_of_toInt_pos hcal.minx_pos
    have hmax := toNat_of_toInt_pos (Int.lt_trans hcal.minx_pos hcal.minx_lt)
    have hlt := hcal.minx_lt
    have hle := hcal.maxx_le
    rw [hfun, toScreen_fits_iff (by omega) (by omega) (by omega) (by omega) (by decide)
      (by decide)]
    refine ⟨Nat.le_refl _, ?_⟩
    exact Nat.mul_lt_mul_of_pos_right (Nat.lt_succ_self _) (by omega)

/-- **Exactly the calibrations whose range of `y` agrees with the bounds of `x` are good
ones**; the built-in one is not. -/
theorem transformToScreen_fits_iff (ts : JzTs) (h : ts.minx = 0 ∨ Calibrated ts) :
    (Fits (transformToScreenX ts) SCREEN_X ∧ Fits (transformToScreenY ts) SCREEN_Y) ↔
      ts.minx ≠ 0 ∧ ts.miny.toNat ≤ ts.minx.toNat ∧
        272 * (ts.maxx.toNat - ts.miny.toNat) < 273 * (ts.maxy.toNat - ts.miny.toNat) := by
  have hx := transformToScreenX_fits h
  rcases h with hdefault | hcal
  · have hfun : transformToScreenY ts = toScreen TSMINX TSMAXX TSMINY TSMAXY SCREEN_Y := by
      funext y
      exact if_neg (not_not.mpr hdefault)
    rw [hfun, toScreen_fits_iff (by decide) (by decide) (by decide) (by decide) (by decide)
      (by decide)]
    constructor
    · rintro ⟨-, hmin, -⟩
      exact absurd hmin (by decide)
    · exact fun h => absurd hdefault h.1
  · have hne : ts.minx ≠ 0 := by
      intro hzero
      have := hcal.minx_pos
      rw [hzero] at this
      exact absurd this (by decide)
    have hfun : transformToScreenY ts = toScreen ts.minx ts.maxx ts.miny ts.maxy SCREEN_Y := by
      funext y
      exact if_pos hne
    have hminx := toNat_of_toInt_pos hcal.minx_pos
    have hmaxx := toNat_of_toInt_pos (Int.lt_trans hcal.minx_pos hcal.minx_lt)
    have hminy := toNat_of_toInt_pos hcal.miny_pos
    have hmaxy := toNat_of_toInt_pos (Int.lt_trans hcal.miny_pos hcal.miny_lt)
    obtain ⟨-, hltx, hlex, -, hlty, hley⟩ := hcal
    rw [hfun, toScreen_fits_iff (by omega) (by omega) (by omega) (by omega) (by decide)
      (by decide)]
    exact ⟨fun h => ⟨hne, h.2⟩, fun h => ⟨hx, h.2⟩⟩

/-- A device with a calibration. -/
def calibrated (minx miny maxx maxy : BitVec 32) : JzTs where
  penIsDown := false
  irqEnabled := true
  eventBuf := fun _ => ⟨0, 0, 0, 0, 0⟩
  nextIn := 0
  nextOut := 0
  eventCount := 0
  minx := minx
  miny := miny
  maxx := maxx
  maxy := maxy
  filter := true
  sleeping := false
  firstRead := false

theorem transformToScreen_fits_same_bounds :
    Calibrated (calibrated 200 200 3900 3900) ∧
    Fits (transformToScreenX (calibrated 200 200 3900 3900)) SCREEN_X ∧
    Fits (transformToScreenY (calibrated 200 200 3900 3900)) SCREEN_Y := by
  have hcal : Calibrated (calibrated 200 200 3900 3900) :=
    ⟨by decide, by decide, by decide, by decide, by decide, by decide⟩
  exact ⟨hcal, (transformToScreen_fits_iff _ (Or.inr hcal)).mpr
    ⟨by decide, by decide, by decide⟩⟩

/-- The built-in calibration: a reading of 100 is not clamped and comes out far off the
screen, between two that are on it.  A range of `y` that ends below the one of `x` does
the same at its upper end. -/
theorem transformToScreenY_off_screen :
    transformToScreenY (calibrated 0 0 0 0) 89 = some 0 ∧
    transformToScreenY (calibrated 0 0 0 0) 100 = some 5924090 ∧
    transformToScreenY (calibrated 0 0 0 0) 105 = some 0 ∧
    transformToScreenY (calibrated 200 100 3900 3000) 3900 = some 356 ∧
    ¬ Fits (transformToScreenY (calibrated 0 0 0 0)) SCREEN_Y := by
  refine ⟨by decide, by decide, by decide, by decide, fun h => ?_⟩
  obtain ⟨ra, rb, -, hrb, -, hle⟩ := h 100 100 (by decide) (by decide)
  have hval : transformToScreenY (calibrated 0 0 0 0) 100 = some 5924090 := by decide
  rw [hval] at hrb
  cases hrb
  exact absurd hle (by decide)

end Dingoo.Ts
