/-
The divisors of a table index.

Whatever was rounded off on the way, the divisor that comes back for an entry is at least
the boot divisor times the entry's own step, and exactly that product as long as it is no
more than 16 and the PLL runs at 10 MHz or more.  What happens then depends on the product
alone.  `n2FR` knows the eight products 1, 2, 3, 4, 6, 8, 12, 16 that are divisors of the
hardware; the product 9 gets index 0, which the hardware reads as 1, and from 17 on the
divisor of the other clocks is 34 or more and is looked up outside the table
(`indexToDivisor_legal_iff`).
-/
import Dingoo.Linux.CpufreqTable
import Dingoo.Proofs.Cpufreq

namespace Dingoo.Cpufreq

variable {pllout cdiv newFreq n : Nat} {table : List Nat}

/-! ### The quotient of quotients -/

/-- The divisor got back from the frequency of a product of divisors is no smaller. -/
theorem le_quotient (hf : 0 < pllout / (1000 * n)) :
    n ≤ pllout / (1000 * (pllout / (1000 * n))) := by
  rw [Nat.le_div_iff_mul_le (by omega)]
  calc n * (1000 * (pllout / (1000 * n)))
      = 1000 * n * (pllout / (1000 * n)) := by ring
    _ ≤ pllout := Nat.mul_div_le _ _

/-- It is the product itself when the frequency, in kHz, is no less. -/
theorem quotient_eq (hn : 0 < n) (hle : n ≤ pllout / (1000 * n)) :
    pllout / (1000 * (pllout / (1000 * n))) = n := by
  have hlow : n ≤ pllout / (1000 * (pllout / (1000 * n))) := le_quotient (by omega)
  have hup : pllout / (1000 * (pllout / (1000 * n))) < n + 1 := by
    rw [Nat.div_lt_iff_lt_mul (by omega)]
    have hfloor : pllout < 1000 * n * (pllout / (1000 * n)) + 1000 * n :=
      Nat.lt_mul_div_succ pllout (by omega)
    calc pllout < 1000 * n * (pllout / (1000 * n)) + 1000 * n := hfloor
      _ ≤ 1000 * n * (pllout / (1000 * n)) + 1000 * (pllout / (1000 * n)) := by omega
      _ = (n + 1) * (1000 * (pllout / (1000 * n))) := by ring
  omega

theorem divOfCclk_eq (hfit : 1000 * newFreq < 2 ^ 32) (hpos : 0 < pllout / (1000 * newFreq))
    (fuel : Nat) : divOfCclk pllout newFreq (fuel + 1) = some (pllout / (1000 * newFreq)) := by
  have hu : u32 (1000 * newFreq) = 1000 * newFreq := Nat.mod_eq_of_lt hfit
  simp only [divOfCclk, hu]
  rw [if_neg (Nat.ne_of_gt hpos)]

/-! ### Fields -/

/-- The four fields select the divisors they were computed for. -/
def Decodes (cdiv : Nat) (cpccr : BitVec 32) : Prop :=
  ∀ k : Clock, fieldDiv k cpccr = some (divisors cdiv k)

/-- From 17 on a divisor is looked up outside the table. -/
theorem packDivisors_none (h : 16 < cdiv) : packDivisors cdiv = none := by
  have hout : n2FR[divisors cdiv .hclk]? = none := by
    rw [List.getElem?_eq_none_iff]
    have hd : divisors cdiv .hclk = 2 * cdiv := by
      unfold divisors
      rw [if_neg (by omega)]
    rw [hd]
    show 33 ≤ 2 * cdiv
    omega
  unfold packDivisors
  rw [hout]
  cases n2FR[divisors cdiv .cclk]? <;> rfl

theorem products_le_sixteen : ∀ d ∈ divTable, ∀ k ∈ tableSteps, d * k ≤ 16 →
    d * k = 9 ∨ d * k ∈ [1, 2, 3, 4, 6, 8, 12, 16] := by
  decide

theorem packDivisors_decodes : ∀ cdiv ∈ [1, 2, 3, 4, 6, 8, 12, 16],
    ∃ v, packDivisors cdiv = some v ∧ Decodes cdiv v := by
  intro cdiv hmem
  simp only [List.mem_cons, List.not_mem_nil, or_false] at hmem
  rcases hmem with rfl | rfl | rfl | rfl | rfl | rfl | rfl | rfl <;>
    exact ⟨_, rfl, fun k => by cases k <;> rfl⟩

/-- The index of the divisor 9 is that of the divisor 1. -/
theorem not_decodes_nine : ¬ ∃ v, packDivisors 9 = some v ∧ Decodes 9 v := by
  rintro ⟨v, hv, hdec⟩
  cases hv
  exact absurd (hdec .cclk) (by decide)

theorem fieldDiv_newCpccr (k : Clock) (old v : BitVec 32) :
    fieldDiv k (newCpccr old ⟨v, divMask⟩) = fieldDiv k v := by
  have hfield : (newCpccr old ⟨v, divMask⟩ >>> k.bit) &&& 0xf
      = (v >>> k.bit) &&& 0xf := by
    have hmask : ((~~~divMask) >>> k.bit) &&& 0xf = 0#32 := by
      cases k <;> decide
    have hce : ((1#32 <<< 22) >>> k.bit) &&& 0xf = 0#32 := by
      cases k <;> decide
    unfold newCpccr
    simp only [BitVec.ushiftRight_or_distrib, BitVec.ushiftRight_and_distrib,
      BitVec.and_or_distrib_right, BitVec.and_assoc]
    rw [hmask, hce, BitVec.and_zero, BitVec.zero_or, BitVec.or_zero]
  unfold fieldDiv
  rw [hfield]

/-! ### Table entries -/

/-- What a change to a table index should do: the call ends within its tables, every field
selects the divisor meant, and the other clocks agree and do not exceed the CPU clock. -/
def Legal (table : List Nat) (pllout index : Nat) : Prop :=
  ∃ fuel cdiv regs, indexToDivisor table pllout index fuel = some (cdiv, regs) ∧
    Decodes cdiv regs.cpccr ∧
    ∀ old, ∃ cclk mclk, cpmGetClk .cclk pllout (newCpccr old regs) = some cclk ∧
      (∀ k, k ≠ .cclk → cpmGetClk k pllout (newCpccr old regs) = some mclk) ∧ mclk ≤ cclk

theorem clocks_of_decodes {v : BitVec 32} (h : Decodes cdiv v) (old : BitVec 32) :
    ∃ cclk mclk,
      cpmGetClk .cclk pllout (newCpccr old ⟨v, divMask⟩) = some cclk ∧
      (∀ k, k ≠ .cclk →
        cpmGetClk k pllout (newCpccr old ⟨v, divMask⟩) = some mclk) ∧
      mclk ≤ cclk := by
  have hclk : ∀ k, cpmGetClk k pllout (newCpccr old ⟨v, divMask⟩)
      = some (pllout / divisors cdiv k) := by
    intro k
    unfold cpmGetClk
    rw [fieldDiv_newCpccr, h k, Option.map_some]
  refine ⟨_, pllout / divisors cdiv .hclk, hclk .cclk, ?_, ?_⟩
  · intro k hk
    rw [hclk k]
    cases k with
    | cclk => exact absurd rfl hk
    | hclk => rfl
    | pclk => rfl
    | mclk => rfl
  · show pllout / ((if cdiv = 1 ∨ cdiv = 2 ∨ cdiv = 4 then 3 else 2) * cdiv) ≤ pllout / cdiv
    rcases Nat.eq_zero_or_pos cdiv with rfl | hpos
    · simp
    · refine Nat.div_le_div_left (Nat.le_mul_of_pos_left _ ?_) hpos
      split <;> decide

theorem init_entry {cpccr : BitVec 32} {d : Nat} (hd : fieldDiv .cclk cpccr = some d)
    (ht : jz4740CpufreqDriverInit 0 pllout cpccr = some table) {index k : Nat}
    (hk : tableSteps[index]? = some k) : table[index]? = some (pllout / (1000 * (d * k))) := by
  have htable : table = tableSteps.map (pllout / d / 1000 / ·) ++ [cpufreqTableEnd] := by
    unfold jz4740CpufreqDriverInit cpmGetClk at ht
    rw [hd] at ht
    exact (Option.some.inj ht).symm
  have hlen : index < tableSteps.length := (List.getElem?_eq_some_iff.mp hk).1
  rw [htable, List.getElem?_append_left (by simpa using hlen), List.getElem?_map, hk,
    Option.map_some, Nat.div_div_eq_div_mul, Nat.div_div_eq_div_mul]
  congr 2
  ring

theorem legal_iff_of_entry (hfit : pllout < 2 ^ 32) {index : Nat}
    (hentry : table[index]? = some newFreq) (hpos : 0 < pllout / (1000 * newFreq)) :
    Legal table pllout index ↔
      ∃ v, packDivisors (pllout / (1000 * newFreq)) = some v ∧
        Decodes (pllout / (1000 * newFreq)) v := by
  have hword : 1000 * newFreq < 2 ^ 32 := by
    have := Nat.div_pos_iff.mp hpos
    omega
  have hcall : ∀ fuel, indexToDivisor table pllout index (fuel + 1)
      = (packDivisors (pllout / (1000 * newFreq))).map fun v =>
          (pllout / (1000 * newFreq), ⟨v, divMask⟩) := by
    intro fuel
    unfold indexToDivisor
    rw [hentry, Option.bind_eq_bind, Option.bind_some, divOfCclk_eq hword hpos,
      Option.bind_some]
    cases packDivisors (pllout / (1000 * newFreq)) <;> rfl
  constructor
  · rintro ⟨fuel, cdiv, regs, hsome, hdec, -⟩
    cases fuel with
    | zero => simp [indexToDivisor, hentry, divOfCclk] at hsome
    | succ fuel =>
      rw [hcall, Option.map_eq_some_iff] at hsome
      obtain ⟨v, hv, heq⟩ := hsome
      cases heq
      exact ⟨v, hv, hdec⟩
  · rintro ⟨v, hv, hdec⟩
    refine ⟨1, _, _, ?_, hdec, clocks_of_decodes hdec⟩
    rw [hcall, hv, Option.map_some]

/-- **A table index is legal exactly when the boot divisor times its step is at most 16 and
not 9.** -/
theorem indexToDivisor_legal_iff (hlow : 10000000 ≤ pllout) (hfit : pllout < 2 ^ 32)
    {cpccr : BitVec 32} {d : Nat} (hd : fieldDiv .cclk cpccr = some d) {table : List Nat}
    (ht : jz4740CpufreqDriverInit 0 pllout cpccr = some table) {index k : Nat}
    (hk : tableSteps[index]? = some k) :
    Legal table pllout index ↔ d * k ≤ 16 ∧ d * k ≠ 9 := by
  have hdmem : d ∈ divTable := List.mem_of_getElem? hd
  have hkmem : k ∈ tableSteps := List.mem_of_getElem? hk
  have hn : 0 < d * k ∧ d * k ≤ 256 :=
    (by decide : ∀ d ∈ divTable, ∀ k ∈ tableSteps, 0 < d * k ∧ d * k ≤ 256) d hdmem k hkmem
  have hf : 10000000 / (1000 * (d * k)) ≤ pllout / (1000 * (d * k)) := Nat.div_le_div_right hlow
  have hkhz : 39 ≤ 10000000 / (1000 * (d * k)) := by
    rw [Nat.le_div_iff_mul_le (by omega)]
    omega
  have hq : d * k ≤ pllout / (1000 * (pllout / (1000 * (d * k)))) := le_quotient (by omega)
  rw [legal_iff_of_entry hfit (init_entry hd ht hk) (by omega)]
  by_cases hsmall : d * k ≤ 16
  · rw [quotient_eq hn.1 (by omega)]
    rcases products_le_sixteen d hdmem k hkmem hsmall with hnine | hmem
    · rw [hnine]
      refine ⟨?_, fun h => absurd rfl h.2⟩
      exact fun h => absurd h not_decodes_nine
    · refine ⟨fun _ => ⟨hsmall, ?_⟩, fun _ => packDivisors_decodes _ hmem⟩
      rintro hnine
      rw [hnine] at hmem
      exact absurd hmem (by decide)
  · -- nothing is computed, so nothing is legal
    rw [packDivisors_none (Nat.lt_of_lt_of_le (Nat.not_le.mp hsmall) hq)]
    simp [hsmall]

/-- Booted at a third of 336 MHz, a quarter of that is the divisor 12, with 24 for the rest. -/
theorem indexToDivisor_legal_quarter :
    fieldDiv .cclk 0x2 = some 3 ∧
    jz4740CpufreqDriverInit 0 336000000 0x2
      = some [14000, 18666, 28000, 37333, 56000, 112000, 4294967294] ∧
    Legal [14000, 18666, 28000, 37333, 56000, 112000, 4294967294] 336000000 2 := by
  refine ⟨by decide, by decide, ?_⟩
  have hd : fieldDiv .cclk 0x2 = some 3 := by decide
  exact (indexToDivisor_legal_iff (by decide) (by decide) hd (by decide) (k := 4) rfl).mpr
    (by decide)

/-- Booted at a third, a third of that is the divisor 9, which runs the CPU at the full
336 MHz, and an eighth is looked up outside the table. -/
theorem indexToDivisor_illegal :
    jz4740CpufreqDriverInit 0 336000000 0x2
      = some [14000, 18666, 28000, 37333, 56000, 112000, 4294967294] ∧
    (indexToDivisor [14000, 18666, 28000, 37333, 56000, 112000, 4294967294] 336000000 3 1).map
      (fun r => (r.1, cpmGetClk .cclk 336000000 (newCpccr 0x2 r.2)))
      = some (9, some 336000000) ∧
    packDivisors 24 = none ∧
    ¬ Legal [14000, 18666, 28000, 37333, 56000, 112000, 4294967294] 336000000 3 ∧
    ¬ Legal [14000, 18666, 28000, 37333, 56000, 112000, 4294967294] 336000000 0 := by
  refine ⟨by decide, by decide, by decide, ?_, ?_⟩
  · rw [legal_iff_of_entry (by decide) rfl (by decide)]
    exact not_decodes_nine
  · rw [legal_iff_of_entry (by decide) rfl (by decide)]
    rintro ⟨v, hv, -⟩
    cases hv

end Dingoo.Cpufreq
