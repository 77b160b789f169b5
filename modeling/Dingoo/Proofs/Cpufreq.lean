/-
SDRAM timings stay long enough while the memory clock is scaled.

A timing of `c` cycles at `n` kHz lasts `c * 1000000 / n` whole nanoseconds.  Two
facts carry the argument.  One is about numbers: scaling a timing down with the
clock and adding a cycle when that came out short never gives less than the boot
time, unless the result exceeds what the field can hold.  The other is about the
order of the writes: a timing that is long enough at some clock is long enough at
every slower one, so it does not matter that DMCR is early when the clock rises and
late when it falls.
-/
import Dingoo.Linux.Cpufreq
import Mathlib.Tactic.NormNum
import Mathlib.Tactic.Ring

namespace Dingoo.Cpufreq

variable {boot : BootConfig} {t : Timing} {hw : Hw} {newMclk pllout c : Nat}

/-! ### The fields of DMCR -/

theorem field_shift (t u : Timing) : ∀ x, x ≤ u.mask.toNat →
    ((BitVec.ofNat 32 x <<< u.bit) >>> t.bit) &&& t.mask
      = if t = u then BitVec.ofNat 32 x else 0 := by
  cases t <;> cases u <;> decide

theorem field_masked (u : Timing) : ∀ x, x ≤ u.mask.toNat →
    (BitVec.ofNat 32 x <<< u.bit) &&& ~~~timingMask = 0 := by
  cases u <;> decide

theorem timingMask_field (t : Timing) : (~~~timingMask >>> t.bit) &&& t.mask = 0 := by
  cases t <;> decide

/-- What `jz_update_dram_dmcr` writes for the field values `v`. -/
def packTimings (dmcr : BitVec 32) (v : Timing → Nat) : BitVec 32 :=
  (dmcr &&& ~~~timingMask) |||
    (BitVec.ofNat 32 (v .tras) <<< Timing.tras.bit ||| BitVec.ofNat 32 (v .rcd) <<< Timing.rcd.bit
      ||| BitVec.ofNat 32 (v .tpc) <<< Timing.tpc.bit
      ||| BitVec.ofNat 32 (v .trwl) <<< Timing.trwl.bit
      ||| BitVec.ofNat 32 (v .trc) <<< Timing.trc.bit)

section

variable {v : Timing → Nat} (hv : ∀ t, v t ≤ t.mask.toNat) (dmcr : BitVec 32)

include hv

theorem packTimings_other : packTimings dmcr v &&& ~~~timingMask = dmcr &&& ~~~timingMask := by
  simp only [packTimings, BitVec.and_or_distrib_right, field_masked _ _ (hv _), BitVec.and_assoc,
    BitVec.and_self]
  simp

theorem packTimings_field (t : Timing) :
    ((packTimings dmcr v >>> t.bit) &&& t.mask).toNat = v t := by
  have hword : (packTimings dmcr v >>> t.bit) &&& t.mask = BitVec.ofNat 32 (v t) := by
    simp only [packTimings, BitVec.ushiftRight_or_distrib, BitVec.ushiftRight_and_distrib,
      BitVec.and_or_distrib_right, BitVec.and_assoc, timingMask_field, field_shift _ _ _ (hv _)]
    cases t <;> simp
  have hle := hv t
  have hmask : t.mask.toNat ≤ 7 := by cases t <;> decide
  rw [hword, BitVec.toNat_ofNat]
  exact Nat.mod_eq_of_lt (by omega)

end

/-! ### One timing at a new clock -/

namespace Timing

theorem encode_le_mask (t : Timing) (hlo : t.lo ≤ c) (hhi : c ≤ t.hi) :
    t.encode c ≤ t.mask.toNat := by
  cases t <;> simp only [lo, hi, encode, mask] at * <;> simp <;> omega

/-- The half cycles of TRC are rounded up, everything else is exact. -/
theorem le_decode_encode (t : Timing) (hlo : t.lo ≤ c) : c ≤ t.decode (t.encode c) := by
  cases t <;> simp only [lo, encode, decode] at * <;> omega

theorem hi_le (t : Timing) : t.hi ≤ 15 := by cases t <;> decide

theorem bump_pos (t : Timing) : 1 ≤ t.bump := by cases t <;> decide

theorem decode_le (t : Timing) {x : Nat} (h : x ≤ t.mask.toNat) : t.decode x ≤ 15 := by
  cases t <;> simp only [mask, decode] at * <;> simp at h <;> omega

end Timing

theorem cycles_le (dmcr : BitVec 32) (t : Timing) : cycles dmcr t ≤ 15 := by
  refine t.decode_le ?_
  rw [BitVec.toNat_and]
  exact Nat.and_le_right

theorem clamp_mem {lo hi : Nat} (h : lo ≤ hi) (c : Nat) :
    lo ≤ clamp lo hi c ∧ clamp lo hi c ≤ hi := by
  unfold clamp
  by_cases hlo : c < lo
  · simp only [if_pos hlo, gt_iff_lt]
    split <;> omega
  · simp only [if_neg hlo, gt_iff_lt]
    split <;> omega

theorem le_clamp {lo hi : Nat} (h : c ≤ hi) : c ≤ clamp lo hi c := by
  unfold clamp
  by_cases hlo : c < lo
  · simp only [if_pos hlo, gt_iff_lt]
    split <;> omega
  · simp only [if_neg hlo, gt_iff_lt]
    split <;> omega

theorem Timing.lo_le_hi (t : Timing) : t.lo ≤ t.hi := by cases t <;> decide

theorem timingField_le (boot : BootConfig) (n : Nat) (t : Timing) :
    timingField boot n t ≤ t.mask.toNat := by
  obtain ⟨hlo, hhi⟩ := clamp_mem t.lo_le_hi (scaleTiming boot n t)
  exact t.encode_le_mask hlo hhi

/-- The scaled timing exceeds what its field can hold, so the field is set to its maximum. -/
def Saturates (boot : BootConfig) (newMclk : Nat) (t : Timing) : Prop :=
  t.hi < scaleTiming boot (newMclk / 1000) t

theorem div_le_of_scaled {n m : Nat} (hn : 0 < n) (hm : 0 < m) :
    c * 1000000 / m ≤ (c * n / m + 1) * 1000000 / n := by
  rw [Nat.le_div_iff_mul_le hn]
  have hv : c * 1000000 / m * m ≤ c * 1000000 := Nat.div_mul_le_self _ _
  have hs : c * n < (c * n / m + 1) * m := by
    rw [Nat.add_mul, Nat.one_mul]
    exact Nat.lt_div_mul_add hm
  -- Both sides times `m`, so that neither has a quotient by `m` left.
  refine Nat.le_of_mul_le_mul_right ?_ hm
  calc c * 1000000 / m * n * m = c * 1000000 / m * m * n := by ring
    _ ≤ c * 1000000 * n := Nat.mul_le_mul_right _ hv
    _ = c * n * 1000000 := by ring
    _ ≤ (c * n / m + 1) * m * 1000000 := Nat.mul_le_mul_right _ (Nat.le_of_lt hs)
    _ = (c * n / m + 1) * 1000000 * m := by ring

/-- A timing that does not saturate its field lasts at least as long as at boot. -/
theorem timingField_valid (hboot : 0 < boot.mclk) (hcyc : boot.cycles t ≤ 15) (hn : 1000 ≤ newMclk)
    (hn' : newMclk < 2 ^ 32) (hsat : ¬ Saturates boot newMclk t) :
    boot.cycles t * 1000000 / boot.mclk
      ≤ t.decode (timingField boot (newMclk / 1000) t) * 1000000 / (newMclk / 1000) := by
  set n := newMclk / 1000 with hnk
  have hpos : 0 < n := by omega
  have hmul : boot.cycles t * n ≤ 15 * 4294967 := Nat.mul_le_mul hcyc (by omega)
  have hs1 : u32 (boot.cycles t * n) = boot.cycles t * n := Nat.mod_eq_of_lt (by omega)
  have hs2 : u32 (boot.cycles t * 1000000) = boot.cycles t * 1000000 := Nat.mod_eq_of_lt (by omega)
  unfold Saturates at hsat
  rw [← hnk] at hsat
  have hhi := t.hi_le
  have hbump := t.bump_pos
  -- The value written is at least the scaled one, which was checked against the boot time.
  have hvalid : boot.cycles t * 1000000 / boot.mclk ≤ scaleTiming boot n t * 1000000 / n := by
    unfold scaleTiming at hsat ⊢
    simp only [hs1, hs2] at hsat ⊢
    split at hsat
    · rename_i hshort
      rw [if_pos hshort]
      refine Nat.le_trans (div_le_of_scaled hpos hboot) ?_
      exact Nat.div_le_div_right (Nat.mul_le_mul_right _ (by omega))
    · rename_i hlong
      rw [if_neg hlong]
      have hs3 : u32 (boot.cycles t * n / boot.mclk * 1000000)
          = boot.cycles t * n / boot.mclk * 1000000 := Nat.mod_eq_of_lt (by omega)
      rw [hs3] at hlong
      omega
  refine Nat.le_trans hvalid (Nat.div_le_div_right (Nat.mul_le_mul_right _ ?_))
  exact Nat.le_trans (le_clamp (Nat.not_lt.mp hsat))
    (t.le_decode_encode (clamp_mem t.lo_le_hi _).1)

/-! ### Whole runs -/

/-- At this instant the timing lasts at least as long as at boot. -/
def LongEnough (boot : BootConfig) (hw : Hw) (t : Timing) : Prop :=
  boot.cycles t * 1000000 / boot.mclk ≤ cycles hw.dmcr t * 1000000 / (hw.mclk / 1000)

theorem LongEnough.slower {hw' : Hw} (h : LongEnough boot hw t) (hd : hw'.dmcr = hw.dmcr)
    (hpos : 1000 ≤ hw'.mclk) (hle : hw'.mclk ≤ hw.mclk) : LongEnough boot hw' t := by
  unfold LongEnough at h ⊢
  rw [hd]
  refine Nat.le_trans h (Nat.div_le_div_left ?_ (by omega))
  exact Nat.div_le_div_right hle

@[simp] theorem jzUpdateDramDmcr_mclk (boot : BootConfig) (newMclk : Nat) (hw : Hw) :
    (jzUpdateDramDmcr boot newMclk hw).mclk = hw.mclk := rfl

theorem jzUpdateDramDmcr_dmcr (boot : BootConfig) (newMclk : Nat) (hw : Hw) :
    (jzUpdateDramDmcr boot newMclk hw).dmcr
      = packTimings hw.dmcr (timingField boot (newMclk / 1000)) := rfl

/-- The DMCR bits that hold no timing. -/
def otherBits (hw : Hw) : BitVec 32 := hw.dmcr &&& ~~~timingMask

theorem jzUpdateDramDmcr_otherBits (boot : BootConfig) (newMclk : Nat) (hw : Hw) :
    otherBits (jzUpdateDramDmcr boot newMclk hw) = otherBits hw :=
  packTimings_other (timingField_le boot (newMclk / 1000)) hw.dmcr

theorem jzUpdateDramDmcr_longEnough {boot : BootConfig} {t : Timing} {newMclk : Nat} {hw : Hw}
    (hboot : 0 < boot.mclk) (hcyc : boot.cycles t ≤ 15) (hn : 1000 ≤ newMclk)
    (hn' : newMclk < 2 ^ 32) (hsat : ¬ Saturates boot newMclk t) (hpos : 1000 ≤ hw.mclk)
    (hle : hw.mclk ≤ newMclk) : LongEnough boot (jzUpdateDramDmcr boot newMclk hw) t := by
  have hvalid := timingField_valid hboot hcyc hn hn' hsat
  unfold LongEnough
  rw [jzUpdateDramDmcr_dmcr, jzUpdateDramDmcr_mclk, cycles,
    packTimings_field (timingField_le boot (newMclk / 1000))]
  refine Nat.le_trans hvalid (Nat.div_le_div_left ?_ (by omega))
  exact Nat.div_le_div_right hle

theorem scaleTo_longEnough (hboot : 0 < boot.mclk) (hcyc : boot.cycles t ≤ 15) (hn : 1000 ≤ newMclk)
    (hn' : newMclk < 2 ^ 32) (hsat : ¬ Saturates boot newMclk t) (hpos : 1000 ≤ hw.mclk)
    (h : LongEnough boot hw t) :
    LongEnough boot (scaleTo boot newMclk hw).1 t ∧
    LongEnough boot (scaleTo boot newMclk hw).2.1 t ∧
    LongEnough boot (scaleTo boot newMclk hw).2.2 t := by
  unfold scaleTo jzUpdateDramPrev jzUpdateDramPost
  by_cases hfast : newMclk > hw.mclk
  · -- Faster: DMCR is written for the clock to come.
    simp only [if_pos hfast]
    have h1 : LongEnough boot (jzUpdateDramDmcr boot newMclk hw) t :=
      jzUpdateDramDmcr_longEnough hboot hcyc hn hn' hsat hpos (by omega)
    have h2 : LongEnough boot { jzUpdateDramDmcr boot newMclk hw with mclk := newMclk } t :=
      @jzUpdateDramDmcr_longEnough boot t newMclk { hw with mclk := newMclk } hboot hcyc hn hn' hsat
        hn (Nat.le_refl _)
    exact ⟨h1, h2, h2⟩
  · -- Slower: the old DMCR serves until the clock has dropped.
    simp only [if_neg hfast]
    refine ⟨h, ?_, ?_⟩
    · exact h.slower rfl hn (by simp only; omega)
    · exact jzUpdateDramDmcr_longEnough hboot hcyc hn hn' hsat hn (Nat.le_refl _)

theorem scaleTo_otherBits (boot : BootConfig) (newMclk : Nat) (hw : Hw) :
    otherBits (scaleTo boot newMclk hw).1 = otherBits hw ∧
    otherBits (scaleTo boot newMclk hw).2.1 = otherBits hw ∧
    otherBits (scaleTo boot newMclk hw).2.2 = otherBits hw := by
  unfold scaleTo jzUpdateDramPrev jzUpdateDramPost
  by_cases hfast : newMclk > hw.mclk
  · simp only [if_pos hfast]
    have h := jzUpdateDramDmcr_otherBits boot newMclk hw
    exact ⟨h, h, h⟩
  · simp only [if_neg hfast]
    exact ⟨rfl, rfl, jzUpdateDramDmcr_otherBits boot newMclk hw⟩

theorem scaleTo_mclk (boot : BootConfig) (newMclk : Nat) (hw : Hw) :
    (scaleTo boot newMclk hw).2.2.mclk = newMclk := by
  unfold scaleTo jzUpdateDramPost
  simp only
  split <;> rfl

theorem instants_longEnough (hboot : 0 < boot.mclk)
    (hcyc : boot.cycles t ≤ 15) : ∀ (clocks : List Nat) (hw : Hw),
      (∀ c ∈ clocks, 1000 ≤ c ∧ c < 2 ^ 32 ∧ ¬ Saturates boot c t) → 1000 ≤ hw.mclk →
      LongEnough boot hw t → ∀ h ∈ instants boot hw clocks, LongEnough boot h t := by
  intro clocks
  induction clocks with
  | nil =>
    intro hw _ _ hlong h hh
    rw [List.mem_singleton.mp hh]
    exact hlong
  | cons c rest ih =>
    intro hw hc hpos hlong h hh
    obtain ⟨hn, hn', hsat⟩ := hc c (by simp)
    obtain ⟨h1, h2, h3⟩ := scaleTo_longEnough hboot hcyc hn hn' hsat hpos hlong
    simp only [instants, List.mem_cons] at hh
    rcases hh with rfl | rfl | rfl | hh
    · exact hlong
    · exact h1
    · exact h2
    · exact ih _ (fun x hx => hc x (by simp [hx])) (by rw [scaleTo_mclk]; exact hn) h3 h hh

theorem instants_otherBits (boot : BootConfig) : ∀ (clocks : List Nat) (hw : Hw),
    ∀ h ∈ instants boot hw clocks, otherBits h = otherBits hw := by
  intro clocks
  induction clocks with
  | nil =>
    intro hw h hh
    rw [List.mem_singleton.mp hh]
  | cons c rest ih =>
    intro hw h hh
    obtain ⟨h1, h2, h3⟩ := scaleTo_otherBits boot c hw
    simp only [instants, List.mem_cons] at hh
    rcases hh with rfl | rfl | rfl | hh
    · rfl
    · exact h1
    · exact h2
    · rw [ih _ h hh, h3]

theorem instants_ok (hboot : 1000 ≤ hw.mclk) {clocks : List Nat}
    (hclk : ∀ c ∈ clocks, 1000 ≤ c ∧ c < 2 ^ 32) :
    ∀ h ∈ instants (jzInitBootConfig hw) hw clocks,
      (∀ t, (∃ c ∈ clocks, Saturates (jzInitBootConfig hw) c t) ∨
        LongEnough (jzInitBootConfig hw) h t) ∧ otherBits h = otherBits hw := by
  intro h hh
  refine ⟨fun t => ?_, instants_otherBits _ clocks hw h hh⟩
  by_cases hsat : ∃ c ∈ clocks, Saturates (jzInitBootConfig hw) c t
  · exact Or.inl hsat
  · have hpos : 0 < (jzInitBootConfig hw).mclk := by
      show 0 < hw.mclk / 1000
      omega
    refine Or.inr (instants_longEnough hpos (cycles_le hw.dmcr t) clocks hw ?_ hboot
      (Nat.le_refl _) h hh)
    intro c hc
    exact ⟨(hclk c hc).1, (hclk c hc).2, fun hs => hsat ⟨c, hc, hs⟩⟩

/-- **SDRAM stays within specification across frequency scaling.**  At every instant of
every run each timing lasts at least as long, in whole nanoseconds, as it did at boot,
unless some transition of the run saturated its field; and the rest of DMCR is never
touched. -/
theorem instants_timings (hw : Hw) (hboot : 1000 ≤ hw.mclk) (clocks : List Nat)
    (hclk : ∀ c ∈ clocks, 1000 ≤ c ∧ c < 2 ^ 32) :
    ∀ h ∈ instants (jzInitBootConfig hw) hw clocks,
      (∀ t, (∃ c ∈ clocks, Saturates (jzInitBootConfig hw) c t) ∨
        cycles hw.dmcr t * 1000000 / (hw.mclk / 1000)
          ≤ cycles h.dmcr t * 1000000 / (h.mclk / 1000)) ∧
      h.dmcr &&& ~~~timingMask = hw.dmcr &&& ~~~timingMask :=
  instants_ok hboot hclk

/-- Booted at 96 MHz with a RAS pulse of 6 cycles, slowed to 24 MHz and sped up to
120 MHz: no transition saturates its field, and the pulse is 62 ns or more throughout. -/
theorem instants_timings_sample :
    (∀ c ∈ [24000000, 120000000],
      ¬ Saturates (jzInitBootConfig ⟨0x454449a8, 64, 64, 96000000⟩) c .tras) ∧
    ∀ h ∈ instants (jzInitBootConfig ⟨0x454449a8, 64, 64, 96000000⟩)
        ⟨0x454449a8, 64, 64, 96000000⟩ [24000000, 120000000],
      62 ≤ cycles h.dmcr .tras * 1000000 / (h.mclk / 1000) := by
  have hnone : ∀ c ∈ [24000000, 120000000],
      ¬ Saturates (jzInitBootConfig ⟨0x454449a8, 64, 64, 96000000⟩) c .tras := by
    unfold Saturates
    decide
  refine ⟨hnone, fun h hh => ?_⟩
  rcases (instants_timings ⟨0x454449a8, 64, 64, 96000000⟩ (by decide) [24000000, 120000000]
    (by decide) h hh).1 .tras with ⟨c, hc, hs⟩ | hok
  · exact absurd hs (hnone c hc)
  · exact hok

/-! ### The register level -/

/-- The clocks a sequence of `jz_scale_divisors` calls goes through are quotients of the
PLL output, and its instants are those of `scaleTo`. -/
theorem jzScaleDivisors_instants :
    ∀ (calls : List DpmRegs) (cpccr : BitVec 32) (hw : Hw) {l : List Hw},
      jzScaleDivisors boot pllout cpccr hw calls = some l →
      ∃ clocks, (∀ c ∈ clocks, ∃ d ∈ divTable, c = pllout / d) ∧ l = instants boot hw clocks := by
  intro calls
  induction calls with
  | nil =>
    intro cpccr hw l h
    exact ⟨[], by simp, (Option.some.inj h).symm⟩
  | cons regs rest ih =>
    intro cpccr hw l h
    rw [jzScaleDivisors] at h
    obtain ⟨c, hc, h⟩ := Option.bind_eq_some_iff.mp h
    obtain ⟨later, hlater, h⟩ := Option.bind_eq_some_iff.mp h
    obtain ⟨clocks, hclk, rfl⟩ := ih _ _ hlater
    obtain ⟨d, hd, rfl⟩ := Option.map_eq_some_iff.mp hc
    refine ⟨pllout / d :: clocks, ?_, (Option.some.inj h).symm⟩
    intro x hx
    rcases List.mem_cons.mp hx with rfl | hx
    · exact ⟨d, List.mem_of_getElem? hd, rfl⟩
    · exact hclk x hx

/-- The same for the calls as the driver makes them, with a PLL of at least 32 kHz. -/
theorem jzScaleDivisors_timings (hpll : 32000 ≤ pllout) (hpll' : pllout < 2 ^ 32)
    {cpccr : BitVec 32} (hboot : 1000 ≤ hw.mclk) {calls : List DpmRegs} {l : List Hw}
    (hl : jzScaleDivisors (jzInitBootConfig hw) pllout cpccr hw calls = some l) :
    ∃ clocks : List Nat, (∀ c ∈ clocks, ∃ d ∈ divTable, c = pllout / d) ∧
      ∀ h ∈ l, (∀ t, (∃ c ∈ clocks, Saturates (jzInitBootConfig hw) c t) ∨
        LongEnough (jzInitBootConfig hw) h t) ∧ otherBits h = otherBits hw := by
  obtain ⟨clocks, hclk, rfl⟩ := jzScaleDivisors_instants calls cpccr hw hl
  have htable : ∀ d ∈ divTable, 1 ≤ d ∧ d ≤ 32 := by decide
  refine ⟨clocks, hclk, instants_ok hboot ?_⟩
  intro c hc
  obtain ⟨d, hd, rfl⟩ := hclk c hc
  obtain ⟨hd1, hd32⟩ := htable d hd
  refine ⟨?_, Nat.lt_of_le_of_lt (Nat.div_le_self _ _) hpll'⟩
  calc 1000 = 32000 / 32 := by norm_num
    _ ≤ pllout / 32 := Nat.div_le_div_right hpll
    _ ≤ pllout / d := Nat.div_le_div_left hd32 hd1

end Dingoo.Cpufreq
