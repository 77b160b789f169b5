/-
Which interrupts are dispatched.

A call takes the lowest line out of the lines pending now and those recorded by earlier
calls.  A recorded line may have gone away since, and the registers of a GPIO group or of
the DMA controller are read only when their line is taken.  Then the number given to
`do_IRQ` is that of a source that is not pending, or one computed from -1: 47, 79, 111 or
143 for the groups and 31 for the DMA controller.  So a call is right exactly if the line
it takes signals at that call (`goodCall_iff`).

Which lines are recorded is a matter of the calls before: those whose bit was set at one of
them and which none has taken since (`recorded_iff`).
-/
import Dingoo.Linux.Irq
import Dingoo.Lib.Masks
import Dingoo.Lib.Runs

namespace Dingoo.Irq

open Dingoo.Lib

variable {g n : Nat} {r : Regs} {x : BitVec 32}

/-! ### Sources -/

/-- A line that is not that of a GPIO group or of the DMA controller. -/
def Direct (n : Nat) : Prop :=
  n < 32 ∧ n ≠ IRQ_GPIO0 ∧ n ≠ IRQ_GPIO1 ∧ n ≠ IRQ_GPIO2 ∧ n ≠ IRQ_GPIO3 ∧ n ≠ IRQ_DMAC

/-- The line of a GPIO group. -/
def groupLine (g : Nat) : Nat := IRQ_GPIO0 - g

/-- The number of a source that is pending. -/
def IsPending (r : Regs) (irq : Int) : Prop :=
  (∃ n : Nat, Direct n ∧ irq = n ∧ r.ipr.getLsbD n = true) ∨
  (∃ g i : Nat, g < 4 ∧ i < 32 ∧ irq = IRQ_GPIO_0 + 32 * g + i ∧ (r.flg g).getLsbD i = true) ∨
  ∃ i : Nat, i < MAX_DMA_NUM ∧ irq = IRQ_DMA_0 + i ∧ r.dmaipr.getLsbD i = true

/-- The line that a call takes. -/
def takenLine (intcIpr : BitVec 32) (r : Regs) : Int := ffs (intcIpr ||| r.ipr) - 1

/-- The number is that of a pending source, and not computed from an empty group or an idle
DMA controller. -/
structure GoodNumber (intcIpr : BitVec 32) (r : Regs) (irq : Int) : Prop where
  pending : IsPending r irq
  group : ∀ g < 4, takenLine intcIpr r = groupLine g → r.flg g ≠ 0
  dma : takenLine intcIpr r = IRQ_DMAC → ∃ i < MAX_DMA_NUM, r.dmaipr.getLsbD i = true

def GoodCall (intcIpr : BitVec 32) (r : Regs) : Prop :=
  ∀ irq, (platIrqDispatch intcIpr r).1 = some irq → GoodNumber intcIpr r irq

/-- A line signals: its group has a flag, a channel an interrupt, or its own bit is set. -/
def Signals (r : Regs) (line : Int) : Prop :=
  (∃ g < 4, line = groupLine g ∧ r.flg g ≠ 0) ∨
  (line = IRQ_DMAC ∧ ∃ i < MAX_DMA_NUM, r.dmaipr.getLsbD i = true) ∨
  ∃ n : Nat, Direct n ∧ line = n ∧ r.ipr.getLsbD n = true

/-! ### Bits -/

theorem exists_bit (h : x ≠ 0) : ∃ j < 32, x.getLsbD j = true := by
  by_contra hno
  refine h (BitVec.eq_of_getLsbD_eq fun i hi => ?_)
  have hclear : ¬ x.getLsbD i = true := fun hset => hno ⟨i, hi, hset⟩
  simpa using hclear

section
variable {j : Nat} (hset : x.getLsbD j = true)
include hset

theorem firstBit_of_set : ∀ (n i : Nat), i + n ≤ 32 → i ≤ j → j < i + n →
    ∃ k < i + n, firstBit x i n = k ∧ x.getLsbD k = true := by
  intro n
  induction n with
  | zero =>
    intro i _ hlo hhi
    omega
  | succ n ih =>
    intro i hn hlo hhi
    rw [firstBit]
    by_cases hbit : x &&& (1#32 <<< i) ≠ 0
    · rw [if_pos hbit]
      exact ⟨i, by omega, rfl, (and_shifted_one (by omega)).mp hbit⟩
    · have hne : i ≠ j := by
        rintro rfl
        exact hbit ((and_shifted_one (by omega)).mpr hset)
      obtain ⟨k, hk, hval⟩ := ih (i + 1) (by omega) (by omega) (by omega)
      rw [if_neg hbit]
      exact ⟨k, by omega, hval⟩

theorem lastBit_of_set : ∀ (n : Nat), n ≤ 32 → j < n →
    ∃ k < n, lastBit x n = k ∧ x.getLsbD k = true := by
  intro n
  induction n with
  | zero => exact fun _ hj => absurd hj (Nat.not_lt_zero j)
  | succ n ih =>
    intro hn hj
    rw [lastBit]
    by_cases hbit : x &&& (1#32 <<< n) ≠ 0
    · rw [if_pos hbit]
      exact ⟨n, Nat.lt_succ_self n, rfl, (and_shifted_one (by omega)).mp hbit⟩
    · have hne : n ≠ j := by
        rintro rfl
        exact hbit ((and_shifted_one (by omega)).mpr hset)
      obtain ⟨k, hk, hval⟩ := ih (by omega) (by omega)
      rw [if_neg hbit]
      exact ⟨k, Nat.lt_succ_of_lt hk, hval⟩

end

theorem takenLine_cases {intcIpr : BitVec 32} (hne : intcIpr ||| r.ipr ≠ 0) :
    ∃ n : Nat, n < 32 ∧ takenLine intcIpr r = n ∧ (intcIpr ||| r.ipr).getLsbD n = true := by
  obtain ⟨j, hj, hset⟩ := exists_bit hne
  obtain ⟨n, hn, hval, hbit⟩ :=
    firstBit_of_set hset 32 0 (Nat.le_refl 32) (Nat.zero_le j) (by omega)
  refine ⟨n, by omega, ?_, hbit⟩
  rw [takenLine, ffs, hval]
  omega

theorem gpioGroupIrq_of_flag (h : r.flg g ≠ 0) :
    ∃ i : Nat, i < 32 ∧ gpioGroupIrq r g = i ∧ (r.flg g).getLsbD i = true := by
  obtain ⟨j, hj, hset⟩ := exists_bit h
  exact lastBit_of_set hset 32 (Nat.le_refl 32) hj

theorem dmacGetIrq_of_channel (h : ∃ i < MAX_DMA_NUM, r.dmaipr.getLsbD i = true) :
    ∃ i : Nat, i < MAX_DMA_NUM ∧ dmacGetIrq r = i ∧ r.dmaipr.getLsbD i = true := by
  obtain ⟨k, hk, hset⟩ := h
  obtain ⟨i, hi, hval⟩ :=
    firstBit_of_set hset MAX_DMA_NUM 0 (by decide) (Nat.zero_le k) (by omega)
  exact ⟨i, by omega, hval⟩

/-! ### The number of a line -/

theorem platRealIrq_group (r : Regs) (hg : g < 4) :
    platRealIrq r (groupLine g) = gpioGroupIrq r g + IRQ_GPIO_0 + 32 * g := by
  obtain rfl | rfl | rfl | rfl : g = 0 ∨ g = 1 ∨ g = 2 ∨ g = 3 := by omega
  · exact (Int.add_zero _).symm
  · rfl
  · rfl
  · rfl

theorem platRealIrq_dmac (r : Regs) : platRealIrq r IRQ_DMAC = dmacGetIrq r + IRQ_DMA_0 := rfl

theorem platRealIrq_direct (r : Regs) (hn : Direct n) : platRealIrq r n = n := by
  obtain ⟨-, h0, h1, h2, h3, hd⟩ := hn
  unfold platRealIrq
  rw [if_neg (by omega), if_neg (by omega), if_neg (by omega), if_neg (by omega),
    if_neg (by omega)]

theorem line_cases (hn : n < 32) : (∃ g < 4, n = groupLine g) ∨ n = IRQ_DMAC ∨ Direct n := by
  by_cases h0 : n = IRQ_GPIO0
  · exact Or.inl ⟨0, by decide, h0⟩
  by_cases h1 : n = IRQ_GPIO1
  · exact Or.inl ⟨1, by decide, h1⟩
  by_cases h2 : n = IRQ_GPIO2
  · exact Or.inl ⟨2, by decide, h2⟩
  by_cases h3 : n = IRQ_GPIO3
  · exact Or.inl ⟨3, by decide, h3⟩
  by_cases hd : n = IRQ_DMAC
  · exact Or.inr (Or.inl hd)
  · exact Or.inr (Or.inr ⟨hn, h0, h1, h2, h3, hd⟩)

theorem groupLine_ne_dmac (hg : g < 4) : groupLine g ≠ IRQ_DMAC := by
  unfold groupLine IRQ_GPIO0 IRQ_DMAC
  omega

theorem groupLine_inj {h : Nat} (hg : g < 4) (hh : h < 4) (heq : groupLine g = groupLine h) :
    g = h := by
  unfold groupLine IRQ_GPIO0 at heq
  omega

theorem Direct.ne_groupLine (hn : Direct n) (hg : g < 4) : n ≠ groupLine g := by
  obtain ⟨-, h0, h1, h2, h3, -⟩ := hn
  unfold groupLine IRQ_GPIO0
  unfold IRQ_GPIO0 at h0
  unfold IRQ_GPIO1 at h1
  unfold IRQ_GPIO2 at h2
  unfold IRQ_GPIO3 at h3
  omega

theorem IsPending.direct (hn : Direct n) (h : IsPending r n) : r.ipr.getLsbD n = true := by
  have hlt := hn.1
  rcases h with ⟨m, -, hm, hbit⟩ | ⟨g, i, -, -, hi, -⟩ | ⟨i, -, hi, -⟩
  · rw [Int.ofNat.inj hm]
    exact hbit
  · unfold IRQ_GPIO_0 at hi
    omega
  · unfold IRQ_DMA_0 at hi
    omega

/-! ### The three kinds of lines -/

section

variable {intcIpr : BitVec 32}

theorem signals_group (hg : g < 4) : Signals r (groupLine g) ↔ r.flg g ≠ 0 := by
  constructor
  · rintro (⟨g', hg', hline, hflag⟩ | ⟨hdmac, -⟩ | ⟨n, hn, hline, -⟩)
    · rw [groupLine_inj hg hg' (Int.ofNat.inj hline)]
      exact hflag
    · exact absurd (Int.ofNat.inj hdmac) (groupLine_ne_dmac hg)
    · exact absurd (Int.ofNat.inj hline).symm (hn.ne_groupLine hg)
  · exact fun h => Or.inl ⟨g, hg, rfl, h⟩

theorem signals_dmac :
    Signals r IRQ_DMAC ↔ ∃ i < MAX_DMA_NUM, r.dmaipr.getLsbD i = true := by
  constructor
  · rintro (⟨g, hg, hline, -⟩ | ⟨-, hchannel⟩ | ⟨n, hn, hline, -⟩)
    · exact absurd (Int.ofNat.inj hline).symm (groupLine_ne_dmac hg)
    · exact hchannel
    · exact absurd (Int.ofNat.inj hline).symm hn.2.2.2.2.2
  · exact fun h => Or.inr (Or.inl ⟨rfl, h⟩)

theorem signals_direct (hn : Direct n) : Signals r n ↔ r.ipr.getLsbD n = true := by
  constructor
  · rintro (⟨g, hg, hline, -⟩ | ⟨hdmac, -⟩ | ⟨m, -, hm, hbit⟩)
    · exact absurd (Int.ofNat.inj hline) (hn.ne_groupLine hg)
    · exact absurd (Int.ofNat.inj hdmac) hn.2.2.2.2.2
    · rw [Int.ofNat.inj hm]
      exact hbit
  · exact fun h => Or.inr (Or.inr ⟨n, hn, rfl, h⟩)

theorem goodNumber_group (hg : g < 4) (hline : takenLine intcIpr r = groupLine g) :
    GoodNumber intcIpr r (platRealIrq r (groupLine g)) ↔ r.flg g ≠ 0 := by
  refine ⟨fun h => h.group g hg hline, fun hflag => ?_⟩
  obtain ⟨i, hi, hval, hbit⟩ := gpioGroupIrq_of_flag hflag
  refine ⟨Or.inr (Or.inl ⟨g, i, hg, hi, ?_, hbit⟩), fun g' hg' h => ?_, fun h => ?_⟩
  · rw [platRealIrq_group r hg, hval]
    omega
  · rw [hline] at h
    rw [← groupLine_inj hg hg' (Int.ofNat.inj h)]
    exact hflag
  · rw [hline] at h
    exact absurd (Int.ofNat.inj h) (groupLine_ne_dmac hg)

theorem goodNumber_dmac (hline : takenLine intcIpr r = IRQ_DMAC) :
    GoodNumber intcIpr r (platRealIrq r IRQ_DMAC) ↔
      ∃ i < MAX_DMA_NUM, r.dmaipr.getLsbD i = true := by
  refine ⟨fun h => h.dma hline, fun hchannel => ?_⟩
  obtain ⟨i, hi, hval, hbit⟩ := dmacGetIrq_of_channel hchannel
  refine ⟨Or.inr (Or.inr ⟨i, hi, ?_, hbit⟩), fun g hg h => ?_, fun _ => hchannel⟩
  · rw [platRealIrq_dmac, hval]
    omega
  · rw [hline] at h
    exact absurd (Int.ofNat.inj h).symm (groupLine_ne_dmac hg)

theorem goodNumber_direct (hn : Direct n) (hline : takenLine intcIpr r = n) :
    GoodNumber intcIpr r (platRealIrq r n) ↔ r.ipr.getLsbD n = true := by
  rw [platRealIrq_direct r hn]
  refine ⟨fun h => h.pending.direct hn, fun hbit => ?_⟩
  refine ⟨Or.inl ⟨n, hn, rfl, hbit⟩, fun g hg h => ?_, fun h => ?_⟩
  · rw [hline] at h
    exact absurd (Int.ofNat.inj h) (hn.ne_groupLine hg)
  · rw [hline] at h
    exact absurd (Int.ofNat.inj h) hn.2.2.2.2.2

end

/-- **A call is right exactly if the line it takes signals.** -/
theorem goodCall_iff (intcIpr : BitVec 32) (r : Regs) :
    GoodCall intcIpr r ↔ (intcIpr ||| r.ipr ≠ 0 → Signals r (takenLine intcIpr r)) := by
  by_cases hzero : intcIpr ||| r.ipr = 0
  · have hnone : (platIrqDispatch intcIpr r).1 = none := by
      unfold platIrqDispatch
      rw [if_pos hzero]
    refine ⟨fun _ h => absurd hzero h, fun _ irq hirq => ?_⟩
    rw [hnone] at hirq
    cases hirq
  · have hsome : (platIrqDispatch intcIpr r).1 = some (platRealIrq r (takenLine intcIpr r)) := by
      unfold platIrqDispatch
      rw [if_neg hzero]
      rfl
    have hcall : GoodCall intcIpr r ↔
        GoodNumber intcIpr r (platRealIrq r (takenLine intcIpr r)) := by
      refine ⟨fun h => h _ hsome, fun h irq hirq => ?_⟩
      rw [hsome] at hirq
      cases hirq
      exact h
    obtain ⟨n, hn, hline, -⟩ := takenLine_cases hzero
    rw [hcall, forall_prop_of_true hzero, hline]
    rcases line_cases hn with ⟨g, hg, rfl⟩ | rfl | hdirect
    · rw [goodNumber_group hg hline, signals_group hg]
    · rw [goodNumber_dmac hline, signals_dmac]
    · rw [goodNumber_direct hdirect hline, signals_direct hdirect]

/-! ### Sequences of calls -/

/-- The static word after a call. -/
def step (intcIpr : BitVec 32) (r : Regs) : BitVec 32 := (platIrqDispatch intcIpr r).2

/-- The bit of the line was set at one of the calls, and neither that call nor a later one took
the line. -/
def Recorded (calls : List Regs) (n : Nat) : Prop :=
  ∃ pre r post, calls = pre ++ r :: post ∧ r.ipr.getLsbD n = true ∧
    EachStep step (fun intcIpr a => takenLine intcIpr a ≠ n) (pre.foldl step 0) (r :: post)

theorem getLsbD_step (intcIpr : BitVec 32) (r : Regs) (n : Nat) :
    (step intcIpr r).getLsbD n = true ↔
      (intcIpr.getLsbD n = true ∨ r.ipr.getLsbD n = true) ∧ takenLine intcIpr r ≠ n := by
  have hor : (intcIpr ||| r.ipr).getLsbD n = true ↔
      intcIpr.getLsbD n = true ∨ r.ipr.getLsbD n = true := by
    rw [BitVec.getLsbD_or, Bool.or_eq_true]
  rw [← hor]
  by_cases hzero : intcIpr ||| r.ipr = 0
  · simp [step, platIrqDispatch, hzero]
  · obtain ⟨k, hk, hline, -⟩ := takenLine_cases hzero
    have hstep : step intcIpr r = (intcIpr ||| r.ipr) &&& ~~~(1#32 <<< k) := by
      have hnat : (takenLine intcIpr r).toNat = k := by
        rw [hline]
        rfl
      simp only [step, platIrqDispatch, if_neg hzero, ← hnat]
      rfl
    rw [hstep, hline, BitVec.getLsbD_and, Bool.and_eq_true]
    refine and_congr_right fun hset => ?_
    have hn := BitVec.lt_of_getLsbD hset
    have hother : n < k ∨ ¬ n - k = 0 ↔ ¬ k = n := by omega
    rw [BitVec.getLsbD_not, BitVec.getLsbD_shiftLeft, BitVec.getLsbD_one]
    simpa [hn] using hother

theorem recorded_concat (calls : List Regs) (a : Regs) (n : Nat) :
    Recorded (calls ++ [a]) n ↔
      (Recorded calls n ∨ a.ipr.getLsbD n = true) ∧ takenLine (calls.foldl step 0) a ≠ n := by
  constructor
  · rintro ⟨pre, r, post, hcalls, hbit, hkept⟩
    rcases List.eq_nil_or_concat' post with rfl | ⟨post, b, rfl⟩
    · obtain ⟨rfl, hr⟩ := List.append_inj' hcalls rfl
      cases hr
      exact ⟨Or.inr hbit, hkept [] a [] rfl⟩
    · rw [← List.cons_append, ← List.append_assoc] at hcalls
      obtain ⟨rfl, hb⟩ := List.append_inj' hcalls rfl
      cases hb
      rw [← List.cons_append, eachStep_concat, ← List.foldl_append] at hkept
      exact ⟨Or.inl ⟨pre, r, post, rfl, hbit, hkept.1⟩, hkept.2⟩
  · rintro ⟨⟨pre, r, post, rfl, hbit, hkept⟩ | hbit, htaken⟩
    · refine ⟨pre, r, post ++ [a], by simp, hbit, ?_⟩
      rw [← List.cons_append, eachStep_concat, ← List.foldl_append]
      exact ⟨hkept, htaken⟩
    · exact ⟨calls, a, [], rfl, hbit, eachStep_cons.mpr ⟨htaken, eachStep_nil _⟩⟩

/-- **The static word holds the lines that are recorded.** -/
theorem recorded_iff (calls : List Regs) (n : Nat) :
    (calls.foldl step 0).getLsbD n = true ↔ Recorded calls n := by
  induction calls using List.reverseRecOn with
  | nil => simp [Recorded]
  | append_singleton calls a ih =>
    rw [recorded_concat, ← ih, List.foldl_append]
    exact getLsbD_step _ a n

/-- **Only pending interrupts are dispatched exactly if every recorded line still signals when it
is taken** and a GPIO or DMA line that is pending when it is taken has a pin or a channel
behind it. -/
theorem dispatches_pending_iff (calls : List Regs) :
    EachStep step GoodCall 0 calls ↔
      ∀ pre r post, calls = pre ++ r :: post →
        ∀ n : Nat, takenLine (pre.foldl step 0) r = n →
          (Recorded pre n → Signals r n) ∧
            (¬ Direct n → r.ipr.getLsbD n = true → Signals r n) := by
  constructor
  · intro h pre r post heq n hline
    have hsignals := (goodCall_iff _ r).mp (h pre r post heq)
    rw [hline] at hsignals
    have hne : Recorded pre n ∨ r.ipr.getLsbD n = true → pre.foldl step 0 ||| r.ipr ≠ 0 := by
      intro hset hzero
      rw [← recorded_iff, ← Bool.or_eq_true, ← BitVec.getLsbD_or, hzero] at hset
      simp at hset
    exact ⟨fun hrec => hsignals (hne (Or.inl hrec)), fun _ hbit => hsignals (hne (Or.inr hbit))⟩
  · intro h pre r post heq
    refine (goodCall_iff _ r).mpr fun hne => ?_
    obtain ⟨n, -, hline, hset⟩ := takenLine_cases hne
    obtain ⟨hold, hnew⟩ := h pre r post heq n hline
    rw [hline]
    rw [BitVec.getLsbD_or, Bool.or_eq_true, recorded_iff] at hset
    rcases hset with hrec | hbit
    · exact hold hrec
    · by_cases hdirect : Direct n
      · exact (signals_direct hdirect).mpr hbit
      · exact hnew hdirect hbit

/-- Two lines are pending at the first call.  The second call finds no line pending any more and
dispatches the one recorded: number 14 of a direct source, number 47 of no source for a
GPIO group, and number 31 for the DMA controller. -/
theorem recorded_line_dispatched :
    (platIrqDispatch 0 ⟨1 <<< 12 ||| 1 <<< 14, fun _ => 0, 0⟩).2 = 1 <<< 14 ∧
    (platIrqDispatch (1 <<< 14) ⟨0, fun _ => 0, 0⟩).1 = some 14 ∧
    (platIrqDispatch (1 <<< 28) ⟨0, fun _ => 0, 0⟩).1 = some 47 ∧
    (platIrqDispatch (1 <<< 20) ⟨0, fun _ => 0, 0⟩).1 = some 31 ∧
    ¬ EachStep step GoodCall 0
      [⟨1 <<< 12 ||| 1 <<< 14, fun _ => 0, 0⟩, ⟨0, fun _ => 0, 0⟩] := by
  refine ⟨by decide, by decide, by decide, by decide, fun h => ?_⟩
  have hgood := h [⟨1 <<< 12 ||| 1 <<< 14, fun _ => 0, 0⟩] ⟨0, fun _ => 0, 0⟩ [] rfl 14 (by decide)
  have hdirect : Direct 14 := by
    unfold Direct
    decide
  exact absurd (hgood.pending.direct hdirect) (by decide)

end Dingoo.Irq
