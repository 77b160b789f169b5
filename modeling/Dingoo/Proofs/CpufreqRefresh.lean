/-
The refresh constant across frequency scaling.

`jz_update_dram_rtcor` scales the boot value of RTCOR with the clock, rounds down and
takes one off.  When the scaled value is at least one, this is no more than the boot rate
allows, and the order of the writes is the safe one: RTCOR is lowered before the clock
falls and raised after it has risen, so between the two writes the rows are refreshed
more often than needed.

When the scaled value is zero, taking one off wraps around to the largest `unsigned int`
and the limit of the field makes it 255.  Such a transition ends with the slowest refresh
there is, at the slowest clock, so one of them is enough to break the bound
(`instants_refresh_iff`).
-/
import Dingoo.Proofs.Cpufreq

namespace Dingoo.Cpufreq

variable {boot : BootConfig} {hw : Hw} {newMclk : Nat}

/-- At this instant rows are refreshed at least as often as at boot, or as often as can be. -/
def Refreshed (boot : BootConfig) (hw : Hw) : Prop :=
  hw.rtcor = 1 ∨ hw.rtcor * boot.mclk ≤ boot.rtcor * (hw.mclk / 1000)

/-- The boot value scaled to a clock is at least one. -/
def Scales (boot : BootConfig) (newMclk : Nat) : Prop :=
  boot.mclk ≤ boot.rtcor * (newMclk / 1000)

/-! ### One value -/

theorem clamp_dec32 {q : Nat} (hq : 0 < q) : clamp 1 255 (dec32 q) = 1 ∨
    clamp 1 255 (dec32 q) ≤ q := by
  unfold clamp dec32
  rw [if_neg (Nat.ne_of_gt hq)]
  by_cases hlow : q - 1 < 1
  · left
    simp [hlow]
  · right
    simp only [if_neg hlow]
    split <;> omega

theorem jzUpdateDramRtcor_rtcor (hr : boot.rtcor ≤ 255) (hn : newMclk < 2 ^ 32) :
    (jzUpdateDramRtcor boot newMclk hw).rtcor
      = clamp 1 255 (dec32 (boot.rtcor * (newMclk / 1000) / boot.mclk)) := by
  have hmul : boot.rtcor * (newMclk / 1000) ≤ 255 * 4294967 := Nat.mul_le_mul hr (by omega)
  have hfit : u32 (boot.rtcor * (newMclk / 1000)) = boot.rtcor * (newMclk / 1000) :=
    Nat.mod_eq_of_lt (by omega)
  show clamp 1 255 (dec32 (u32 (boot.rtcor * (newMclk / 1000)) / boot.mclk)) = _
  rw [hfit]

theorem Refreshed.faster {hw' : Hw} (h : Refreshed boot hw) (hr : hw'.rtcor = hw.rtcor)
    (hle : hw.mclk ≤ hw'.mclk) : Refreshed boot hw' := by
  unfold Refreshed at h ⊢
  rw [hr]
  refine h.imp_right fun h => h.trans ?_
  exact Nat.mul_le_mul_left _ (Nat.div_le_div_right hle)

theorem jzUpdateDramRtcor_refreshed (hpos : 0 < boot.mclk) (hr : boot.rtcor ≤ 255)
    (hn : newMclk < 2 ^ 32) (hscales : Scales boot newMclk) (hle : newMclk ≤ hw.mclk) :
    Refreshed boot (jzUpdateDramRtcor boot newMclk hw) := by
  unfold Refreshed
  rw [jzUpdateDramRtcor_rtcor hr hn]
  have hq : 0 < boot.rtcor * (newMclk / 1000) / boot.mclk := Nat.div_pos hscales hpos
  refine (clamp_dec32 hq).imp_right fun hc => ?_
  calc clamp 1 255 (dec32 (boot.rtcor * (newMclk / 1000) / boot.mclk)) * boot.mclk
      ≤ boot.rtcor * (newMclk / 1000) / boot.mclk * boot.mclk := Nat.mul_le_mul_right _ hc
    _ ≤ boot.rtcor * (newMclk / 1000) := Nat.div_mul_le_self _ _
    _ ≤ boot.rtcor * (hw.mclk / 1000) := Nat.mul_le_mul_left _ (Nat.div_le_div_right hle)

/-- A value scaled down to zero comes out as the largest one. -/
theorem jzUpdateDramRtcor_wraps (hr : boot.rtcor ≤ 255) (hn : newMclk < 2 ^ 32)
    (hscales : ¬ Scales boot newMclk) : (jzUpdateDramRtcor boot newMclk hw).rtcor = 255 := by
  have hzero : boot.rtcor * (newMclk / 1000) / boot.mclk = 0 :=
    Nat.div_eq_of_lt (Nat.not_le.mp hscales)
  rw [jzUpdateDramRtcor_rtcor hr hn, hzero]
  rfl

/-! ### Transitions -/

theorem scaleTo_refreshed (hpos : 0 < boot.mclk) (hr : boot.rtcor ≤ 255) (hn : newMclk < 2 ^ 32)
    (hscales : Scales boot newMclk) (h : Refreshed boot hw) :
    Refreshed boot (scaleTo boot newMclk hw).1 ∧ Refreshed boot (scaleTo boot newMclk hw).2.1 ∧
    Refreshed boot (scaleTo boot newMclk hw).2.2 := by
  have hfresh : ∀ hw' : Hw, newMclk ≤ hw'.mclk →
      Refreshed boot (jzUpdateDramRtcor boot newMclk hw') := fun hw' hle =>
    jzUpdateDramRtcor_refreshed hpos hr hn hscales hle
  unfold scaleTo jzUpdateDramPrev jzUpdateDramPost
  by_cases hfast : newMclk > hw.mclk
  · -- faster: the old value serves until the clock has risen
    simp only [if_pos hfast]
    refine ⟨h, h.faster rfl (Nat.le_of_lt hfast), hfresh _ (Nat.le_refl _)⟩
  · -- slower: the new value is in force before the clock falls
    simp only [if_neg hfast]
    have hnext := hfresh { hw with mclk := newMclk } (Nat.le_refl _)
    exact ⟨hfresh hw (Nat.not_lt.mp hfast), hnext, hnext⟩

theorem scaleTo_rtcor (boot : BootConfig) (newMclk : Nat) (hw : Hw) :
    (scaleTo boot newMclk hw).2.2.rtcor = (jzUpdateDramRtcor boot newMclk hw).rtcor := by
  unfold scaleTo jzUpdateDramPrev jzUpdateDramPost
  by_cases hfast : newMclk > hw.mclk
  · simp only [if_pos hfast]
    rfl
  · simp only [if_neg hfast]
    rfl

theorem scales_of_refreshed (hr : boot.rtcor ≤ 255) (hn : newMclk < 2 ^ 32)
    (h : Refreshed boot (scaleTo boot newMclk hw).2.2) : Scales boot newMclk := by
  by_contra hscales
  unfold Refreshed at h
  rw [scaleTo_rtcor, scaleTo_mclk, jzUpdateDramRtcor_wraps hr hn hscales] at h
  unfold Scales at hscales
  omega

theorem head_mem_instants (boot : BootConfig) (hw : Hw) (clocks : List Nat) :
    hw ∈ instants boot hw clocks := by
  cases clocks with
  | nil => exact List.mem_singleton.mpr rfl
  | cons c rest => exact List.mem_cons_self

theorem instants_refreshed_iff (hpos : 0 < boot.mclk) (hr : boot.rtcor ≤ 255) :
    ∀ (clocks : List Nat) (hw : Hw), (∀ c ∈ clocks, c < 2 ^ 32) → Refreshed boot hw →
      ((∀ h ∈ instants boot hw clocks, Refreshed boot h) ↔ ∀ c ∈ clocks, Scales boot c) := by
  intro clocks
  induction clocks with
  | nil =>
    intro hw _ h
    refine ⟨fun _ => by simp, fun _ h' hh => ?_⟩
    rwa [List.mem_singleton.mp hh]
  | cons c rest ih =>
    intro hw hclk h
    have hc : c < 2 ^ 32 := hclk c List.mem_cons_self
    have hrest := ih (scaleTo boot c hw).2.2 fun x hx => hclk x (List.mem_cons_of_mem c hx)
    rw [List.forall_mem_cons]
    constructor
    · intro hall
      have hlater : ∀ h' ∈ instants boot (scaleTo boot c hw).2.2 rest, Refreshed boot h' :=
        fun h' hh => hall h' (by simp [instants, hh])
      have h3 := hlater _ (head_mem_instants boot _ rest)
      exact ⟨scales_of_refreshed hr hc h3, (hrest h3).mp hlater⟩
    · rintro ⟨hscales, hall⟩ h' hh
      obtain ⟨h1, h2, h3⟩ := scaleTo_refreshed hpos hr hc hscales h
      simp only [instants, List.mem_cons] at hh
      rcases hh with rfl | rfl | rfl | hh
      · exact h
      · exact h1
      · exact h2
      · exact (hrest h3).mpr hall h' hh

/-- **The refresh rate stays at or above the boot rate exactly in the runs whose clocks all
scale the boot value to one or more.** -/
theorem instants_refresh_iff (hw : Hw) (hrtcor : 1 ≤ hw.rtcor ∧ hw.rtcor ≤ 255)
    (hboot : 1000 ≤ hw.mclk) (clocks : List Nat) (hclk : ∀ c ∈ clocks, 1000 ≤ c ∧ c < 2 ^ 32) :
    (∀ h ∈ instants (jzInitBootConfig hw) hw clocks,
      h.rtcor = 1 ∨ h.rtcor * (hw.mclk / 1000) ≤ hw.rtcor * (h.mclk / 1000)) ↔
    ∀ c ∈ clocks, hw.mclk / 1000 ≤ hw.rtcor * (c / 1000) := by
  have hpos : 0 < (jzInitBootConfig hw).mclk := by
    show 0 < hw.mclk / 1000
    omega
  exact instants_refreshed_iff hpos hrtcor.2 clocks hw (fun c hc => (hclk c hc).2)
    (Or.inr (Nat.le_refl _))

/-- Booted with RTCOR 31 at 112 MHz, slowed to 21 MHz and back: the constant is 4 at 21 MHz. -/
theorem instants_refresh_sample :
    (instants (jzInitBootConfig ⟨0x454449a8, 31, 31, 112000000⟩)
        ⟨0x454449a8, 31, 31, 112000000⟩ [21000000, 112000000]).map (fun h => (h.rtcor, h.mclk))
      = [(31, 112000000), (4, 112000000), (4, 21000000), (4, 21000000), (4, 21000000),
        (4, 112000000), (30, 112000000)] ∧
    ∀ h ∈ instants (jzInitBootConfig ⟨0x454449a8, 31, 31, 112000000⟩)
        ⟨0x454449a8, 31, 31, 112000000⟩ [21000000, 112000000],
      h.rtcor = 1 ∨ h.rtcor * 112000 ≤ 31 * (h.mclk / 1000) := by
  refine ⟨by decide, ?_⟩
  exact (instants_refresh_iff ⟨0x454449a8, 31, 31, 112000000⟩ (by decide) (by decide)
    [21000000, 112000000] (by decide)).mpr (by decide)

/-- Booted with RTCOR 1 at 96 MHz and slowed to 48 MHz: the constant becomes 255. -/
theorem instants_refresh_wraps :
    (instants (jzInitBootConfig ⟨0x454449a8, 1, 1, 96000000⟩)
        ⟨0x454449a8, 1, 1, 96000000⟩ [48000000]).map (fun h => (h.rtcor, h.mclk))
      = [(1, 96000000), (255, 96000000), (255, 48000000), (255, 48000000)] ∧
    ¬ ∀ h ∈ instants (jzInitBootConfig ⟨0x454449a8, 1, 1, 96000000⟩)
        ⟨0x454449a8, 1, 1, 96000000⟩ [48000000],
      h.rtcor = 1 ∨ h.rtcor * 96000 ≤ 1 * (h.mclk / 1000) := by
  decide

end Dingoo.Cpufreq
