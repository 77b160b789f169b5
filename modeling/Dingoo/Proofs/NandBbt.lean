/-
The two-plane bad block table against the single-plane one.

In the loop of `nand_scan_tail` the counter is a block number and a bit offset at
once: `i` is twice the number of a two-plane block, `2 * i` four times.  Block `B` is
made of the physical blocks `2B` and `2B + 1`, and `isbad2plane` reads exactly their
entries.  So the loop marks the blocks it visits as it should.  It visits those of
one chip, though the table is for all chips found.
-/
import Dingoo.Linux.NandBbt

namespace Dingoo.Nand

variable {bbt : Nat → BitVec 8} {t : Bbt} {B : Nat}

/-! ### Entries of two bits -/

theorem two_mul_and_six (m : Nat) : 2 * m &&& 6 = 2 * (m % 4) := by
  have hmask : (m <<< 1) &&& (3 <<< 1) = (m &&& 3) <<< 1 := Nat.shiftLeft_and_distrib.symm
  simp only [Nat.shiftLeft_eq, Nat.pow_one] at hmask
  rw [Nat.mul_comm, show (6 : Nat) = 3 * 2 from rfl, hmask, show (3 : Nat) = 2 ^ 2 - 1 from rfl,
    Nat.and_two_pow_sub_one_eq_mod, Nat.mul_comm]

theorem shiftRight_three (m : Nat) : (2 * m) >>> 3 = m / 4 := by
  rw [Nat.shiftRight_eq_div_pow]
  omega

/-- One of the two physical blocks is marked. -/
def BadPair (bbt : Nat → BitVec 8) (B : Nat) : Prop :=
  bbtEntry bbt (2 * B) ≠ 0 ∨ bbtEntry bbt (2 * B + 1) ≠ 0

instance (bbt : Nat → BitVec 8) (B : Nat) : Decidable (BadPair bbt B) :=
  inferInstanceAs (Decidable (_ ∨ _))

theorem isbad2plane_iff (bbt : Nat → BitVec 8) (B : Nat) :
    isbad2plane bbt (2 * (2 * B)) = true ↔ BadPair bbt B := by
  have hsecond : 2 * (2 * B) + 2 = 2 * (2 * B + 1) := by omega
  unfold isbad2plane BadPair bbtEntry
  rw [hsecond, shiftRight_three, shiftRight_three, two_mul_and_six, two_mul_and_six,
    BitVec.and_or_distrib_right, decide_eq_true_iff]
  exact (not_congr BitVec.or_eq_zero_iff).trans not_and_or

theorem entry_of_set (b : BitVec 8) {p q : Nat} (hp : p < 4) (hq : q < 4) :
    (b ||| (3 : BitVec 8) <<< (2 * p)) >>> (2 * q) &&& 3 =
      if p = q then 3 else b >>> (2 * q) &&& 3 := by
  have habsorb : ∀ x : BitVec 8, x &&& 3 ||| 3 = 3 := by
    intro x
    refine BitVec.eq_of_getLsbD_eq fun i _ => ?_
    rw [BitVec.getLsbD_or, BitVec.getLsbD_and]
    cases (3 : BitVec 8).getLsbD i with
    | true => simp
    | false => simp
  have hself : ∀ p < 4, (3 : BitVec 8) <<< (2 * p) >>> (2 * p) &&& 3 = 3 := by decide
  have hother : ∀ p < 4, ∀ q < 4, p ≠ q → (3 : BitVec 8) <<< (2 * p) >>> (2 * q) &&& 3 = 0 := by
    decide
  rw [BitVec.ushiftRight_or_distrib, BitVec.and_or_distrib_right]
  by_cases hpq : p = q
  · subst hpq
    rw [if_pos rfl, hself p hp, habsorb]
  · rw [if_neg hpq, hother p hp q hq hpq]
    exact BitVec.or_zero

/-! ### The loop -/

/-- The entry of a block in the table that is being built. -/
def Bbt.entry (t : Bbt) (B : Nat) : BitVec 8 := bbtEntry (fun j => t.bytes.getD j 0) B

theorem entry_mark (t : Bbt) (writes : List Nat) (k B : Nat) :
    Bbt.entry ⟨t.bytes.modify (k / 4) (· ||| (3 : BitVec 8) <<< (2 * (k % 4))), writes⟩ B =
      if k = B ∧ k / 4 < t.bytes.length then 3 else t.entry B := by
  unfold Bbt.entry bbtEntry
  simp only [List.getD_eq_getElem?_getD, List.getElem?_modify]
  by_cases hbyte : k / 4 = B / 4
  · by_cases hin : B / 4 < t.bytes.length
    · simp only [if_pos hbyte, List.getElem?_eq_getElem hin]
      show (t.bytes[B / 4] ||| (3 : BitVec 8) <<< (2 * (k % 4))) >>> (2 * (B % 4)) &&& 3 = _
      rw [entry_of_set _ (Nat.mod_lt k (by decide)) (Nat.mod_lt B (by decide))]
      by_cases hkB : k = B
      · rw [if_pos (by rw [hkB]), if_pos ⟨hkB, by omega⟩]
      · rw [if_neg (by omega), if_neg (fun h => hkB h.1)]
        rfl
    · rw [List.getElem?_eq_none (by omega), if_neg (by omega)]
      rfl
  · simp only [if_neg hbyte]
    rw [if_neg (by omega)]
    cases t.bytes[B / 4]? with
    | none => rfl
    | some b => rfl

/-- The table when the blocks below `k` have been visited. -/
structure Upto (bbt : Nat → BitVec 8) (len k : Nat) (t : Bbt) : Prop where
  length : t.bytes.length = len
  entry : ∀ B, t.entry B = if (B < k ∧ BadPair bbt B) ∧ B / 4 < len then 3 else 0
  writes : ∀ j, j ∈ t.writes ↔ ∃ B, (B < k ∧ BadPair bbt B) ∧ j = B / 4

theorem upto_zero (bbt : Nat → BitVec 8) (len : Nat) :
    Upto bbt len 0 ⟨List.replicate len 0, []⟩ := by
  refine ⟨List.length_replicate, fun B => ?_, fun j => by simp⟩
  rw [if_neg (by omega), Bbt.entry, bbtEntry]
  by_cases h : B / 4 < len
  · simp [List.getD_eq_getElem?_getD, h]
  · simp [List.getD_eq_getElem?_getD, h]

theorem Upto.next {len k : Nat} (h : Upto bbt len k t) :
    Upto bbt len (k + 1) (mergeBlock bbt t (2 * k)) := by
  have hlt : ∀ B, B < k + 1 ↔ B < k ∨ B = k := by omega
  unfold mergeBlock
  by_cases hbad : BadPair bbt k
  · rw [if_pos ((isbad2plane_iff bbt k).mpr hbad), shiftRight_three, two_mul_and_six]
    refine ⟨(List.length_modify _ _ _).trans h.length, fun B => ?_, fun j => ?_⟩
    · rw [entry_mark, h.entry, h.length]
      by_cases hkB : k = B
      · subst hkB
        by_cases hin : k / 4 < len
        · rw [if_pos ⟨rfl, hin⟩, if_pos ⟨⟨by omega, hbad⟩, hin⟩]
        · rw [if_neg (fun hc => hin hc.2), if_neg (fun hc => hin hc.2),
            if_neg (fun hc => hin hc.2)]
      · have hB : B < k + 1 ↔ B < k := by omega
        rw [if_neg (fun hc => hkB hc.1)]
        simp only [hB]
    · rw [List.mem_append, h.writes, List.mem_singleton]
      constructor
      · rintro (⟨B, ⟨hB, hpair⟩, hj⟩ | hj)
        · exact ⟨B, ⟨by omega, hpair⟩, hj⟩
        · exact ⟨k, ⟨by omega, hbad⟩, hj⟩
      · rintro ⟨B, ⟨hB, hpair⟩, hj⟩
        rcases (hlt B).mp hB with hB | rfl
        · exact Or.inl ⟨B, ⟨hB, hpair⟩, hj⟩
        · exact Or.inr hj
  · rw [if_neg (fun hb => hbad ((isbad2plane_iff bbt k).mp hb))]
    have hsame : ∀ B, (B < k + 1 ∧ BadPair bbt B) ↔ (B < k ∧ BadPair bbt B) := by
      intro B
      rw [hlt]
      constructor
      · rintro ⟨hB | rfl, hpair⟩
        · exact ⟨hB, hpair⟩
        · exact absurd hpair hbad
      · rintro ⟨hB, hpair⟩
        exact ⟨Or.inl hB, hpair⟩
    refine ⟨h.length, fun B => ?_, fun j => ?_⟩
    · rw [h.entry]
      simp only [hsame]
    · rw [h.writes]
      simp only [hsame]

theorem upto_merge (bbt : Nat → BitVec 8) (len : Nat) :
    ∀ (k : Nat), Upto bbt len k
      (((List.range k).map (2 * ·)).foldl (mergeBlock bbt) ⟨List.replicate len 0, []⟩) := by
  intro k
  induction k with
  | zero => exact upto_zero bbt len
  | succ k ih =>
    rw [List.range_succ, List.map_append, List.foldl_append]
    exact ih.next

/-! ### The table of the device -/

/-- The table marks the blocks below `blocks` as it should, and nothing else is written. -/
structure Merged (bbt : Nat → BitVec 8) (t : Bbt) (blocks : Nat) : Prop where
  marks : ∀ B < blocks, t.entry B ≠ 0 ↔ BadPair bbt B
  clear : ∀ B, blocks ≤ B → t.entry B = 0
  inside : ∀ j ∈ t.writes, j < t.bytes.length

theorem upto_mergeBbt (bbt : Nat → BitVec 8) (nb more sh : Nat) :
    Upto bbt ((more + 1) * nb / 4) nb
      (mergeBbt bbt (nb * 2 ^ (sh + 1)) ((more + 1) * (nb * 2 ^ (sh + 1))) (sh + 1)) := by
  have hnum : (nb * 2 ^ (sh + 1)) >>> sh = 2 * nb := by
    rw [Nat.shiftRight_eq_div_pow, Nat.pow_succ, Nat.mul_comm (2 ^ sh) 2, ← Nat.mul_assoc,
      Nat.mul_div_cancel _ (Nat.two_pow_pos sh), Nat.mul_comm]
  have hlen : ((more + 1) * (nb * 2 ^ (sh + 1))) >>> (sh + 1 + 2) = (more + 1) * nb / 4 := by
    rw [Nat.shiftRight_eq_div_pow, ← Nat.mul_assoc, Nat.pow_add 2 (sh + 1) 2,
      ← Nat.div_div_eq_div_mul, Nat.mul_div_cancel _ (Nat.two_pow_pos _)]
  unfold mergeBbt
  simp only [Nat.add_sub_cancel, hnum, hlen]
  rw [show (2 * nb + 1) / 2 = nb by omega]
  exact upto_merge bbt _ nb

/-- Two chips of four blocks: physical block 8 is bad, and logical block 4 is not marked. -/
theorem second_chip_unmarked :
    bbtEntry (fun i => if i = 2 then 3 else 0) (2 * 4) ≠ 0 ∧
      (mergeBbt (fun i => if i = 2 then 3 else 0) (4 * 2 ^ 18) (2 * (4 * 2 ^ 18)) 18).entry 4
        = 0 := by
  decide

/-- **When the merged table is right**: for every single-plane table, number of blocks of a chip
and number of chips, if and only if every block with a bad half lies in the first chip and in
the bytes allocated, of which there is one for each four blocks. -/
theorem mergeBbt_iff (bbt : Nat → BitVec 8) (nb more sh : Nat) :
    Merged bbt (mergeBbt bbt (nb * 2 ^ (sh + 1)) ((more + 1) * (nb * 2 ^ (sh + 1))) (sh + 1))
        ((more + 1) * nb) ↔
      ∀ B < (more + 1) * nb, BadPair bbt B → B < nb ∧ B / 4 < (more + 1) * nb / 4 := by
  have h := upto_mergeBbt bbt nb more sh
  have hfirst : nb ≤ (more + 1) * nb := Nat.le_mul_of_pos_left nb (by omega)
  have hthree : (3 : BitVec 8) ≠ 0 := by decide
  constructor
  · intro hm B hB hbad
    have hne := (hm.marks B hB).mpr hbad
    rw [h.entry] at hne
    split at hne
    · rename_i hc
      exact ⟨hc.1.1, hc.2⟩
    · exact absurd rfl hne
  · intro hcond
    refine ⟨fun B hB => ?_, fun B hB => ?_, fun j hj => ?_⟩
    · rw [h.entry]
      constructor
      · intro hne
        split at hne
        · rename_i hc
          exact hc.1.2
        · exact absurd rfl hne
      · intro hbad
        obtain ⟨hnb, hin⟩ := hcond B hB hbad
        rw [if_pos ⟨⟨hnb, hbad⟩, hin⟩]
        exact hthree
    · rw [h.entry, if_neg (by omega)]
    · obtain ⟨B, ⟨hB, hbad⟩, rfl⟩ := (h.writes j).mp hj
      rw [h.length]
      exact (hcond B (by omega) hbad).2

end Dingoo.Nand
