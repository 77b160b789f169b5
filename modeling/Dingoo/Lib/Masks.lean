/-
Machine words cut at a bit position.

Drivers split an address into the part below a power of two and the part above it
with the masks `2^p - 1` and `~(2^p - 1)`, and test single bits with `1 << i`.  Read
as naturals these are remainder, rounding down, and `getLsbD`.  A number is put
together from parts by shifting each behind the next one and joining them with `or`;
where the parts do not overlap that is their sum.
-/
import Mathlib.Algebra.Group.Nat.Defs
import Mathlib.Data.Nat.Bits

namespace Dingoo.Lib

variable {w p : Nat}

theorem shiftLeft_or {b n : Nat} (a : Nat) (hb : b < 2 ^ n) : a <<< n ||| b = a * 2 ^ n + b := by
  rw [← Nat.shiftLeft_add_eq_or_of_lt hb, Nat.shiftLeft_eq]

theorem or_shiftLeft {a n : Nat} (b : Nat) (ha : a < 2 ^ n) : a ||| b <<< n = a + b * 2 ^ n := by
  rw [Nat.or_comm, shiftLeft_or b ha, Nat.add_comm]

theorem shiftLeft_or_or {b c m n : Nat} (a : Nat) (hb : b < 2 ^ m) (hc : c < 2 ^ n) :
    a <<< (m + n) ||| b <<< n ||| c = (a * 2 ^ m + b) * 2 ^ n + c := by
  rw [Nat.shiftLeft_add, ← Nat.shiftLeft_or_distrib, shiftLeft_or _ hc, shiftLeft_or _ hb]

theorem and_shifted_one {x : BitVec w} {i : Nat} (hi : i < w) :
    (x &&& (1#w <<< i) ≠ 0) ↔ x.getLsbD i = true := by
  rw [← BitVec.twoPow_eq, BitVec.and_twoPow]
  have hne : BitVec.twoPow w i ≠ 0#w := by
    intro hz
    have hbit := congrArg (fun y : BitVec w => y.getLsbD i) hz
    simp [hi] at hbit
  cases x.getLsbD i <;> simp [hne]

theorem lowMask_toNat (hp : p < w) : (BitVec.ofNat w (2 ^ p) - 1).toNat = 2 ^ p - 1 := by
  have hlt : 2 ^ p < 2 ^ w := Nat.pow_lt_pow_right (by decide) hp
  have hone : (1 : BitVec w).toNat = 1 := by
    show (BitVec.ofNat w 1).toNat = 1
    rw [BitVec.toNat_ofNat, Nat.mod_eq_of_lt]
    exact Nat.lt_of_le_of_lt Nat.one_le_two_pow hlt
  have hpow : (BitVec.ofNat w (2 ^ p)).toNat = 2 ^ p := by
    rw [BitVec.toNat_ofNat, Nat.mod_eq_of_lt hlt]
  rw [BitVec.toNat_sub_of_le, hpow, hone]
  rw [BitVec.le_def, hpow, hone]
  exact Nat.one_le_two_pow

theorem and_lowMask_toNat (hp : p < w) (x : BitVec w) :
    (x &&& (BitVec.ofNat w (2 ^ p) - 1)).toNat = x.toNat % 2 ^ p := by
  rw [BitVec.toNat_and, lowMask_toNat hp, Nat.and_two_pow_sub_one_eq_mod]

/-- The lowest `p` bits, by any spelling of their mask. -/
theorem and_low_toNat {x m : BitVec w} (hm : m.toNat = 2 ^ p - 1) :
    (x &&& m).toNat = x.toNat % 2 ^ p := by
  rw [BitVec.toNat_and, hm, Nat.and_two_pow_sub_one_eq_mod]

/-- The lowest `p` bits, shifted up to where there is room for them. -/
theorem and_low_shiftLeft_toNat {n : Nat} {x m : BitVec w} (hm : m.toNat = 2 ^ p - 1)
    (hfit : p + n ≤ w) : ((x &&& m) <<< n).toNat = (x.toNat % 2 ^ p) <<< n := by
  have hlt : x.toNat % 2 ^ p * 2 ^ n < 2 ^ w :=
    calc x.toNat % 2 ^ p * 2 ^ n < 2 ^ p * 2 ^ n :=
          Nat.mul_lt_mul_of_pos_right (Nat.mod_lt _ (Nat.two_pow_pos p)) (Nat.two_pow_pos n)
      _ = 2 ^ (p + n) := (Nat.pow_add 2 p n).symm
      _ ≤ 2 ^ w := Nat.pow_le_pow_right (by decide) hfit
  rw [BitVec.toNat_shiftLeft, and_low_toNat hm, Nat.shiftLeft_eq, Nat.mod_eq_of_lt hlt]

/-- The bits from `p` on, where the number has `k` of them, shifted down. -/
theorem and_high_shiftRight_toNat {k : Nat} {x m : BitVec w} (hm : m.toNat >>> p = 2 ^ k - 1)
    (hx : x.toNat < 2 ^ p * 2 ^ k) : ((x &&& m) >>> p).toNat = x.toNat / 2 ^ p := by
  rw [BitVec.toNat_ushiftRight, BitVec.toNat_and, Nat.shiftRight_and_distrib, hm,
    Nat.and_two_pow_sub_one_eq_mod, Nat.shiftRight_eq_div_pow,
    Nat.mod_eq_of_lt (Nat.div_lt_of_lt_mul hx)]

theorem and_highMask_toNat (hp : p < w) (x : BitVec w) :
    (x &&& ~~~(BitVec.ofNat w (2 ^ p) - 1)).toNat = x.toNat / 2 ^ p * 2 ^ p := by
  have hshift : x &&& ~~~(BitVec.ofNat w (2 ^ p) - 1) = (x >>> p) <<< p := by
    refine BitVec.eq_of_getLsbD_eq fun i hi => ?_
    have hmask : (BitVec.ofNat w (2 ^ p) - 1).getLsbD i = decide (i < p) := by
      rw [← BitVec.testBit_toNat, lowMask_toNat hp, Nat.testBit_two_pow_sub_one]
    rw [BitVec.getLsbD_and, BitVec.getLsbD_not, hmask, BitVec.getLsbD_shiftLeft,
      BitVec.getLsbD_ushiftRight]
    by_cases h : i < p
    · simp [h]
    · have hback : p + (i - p) = i := by omega
      simp [h, hi, hback]
  have hle : x.toNat / 2 ^ p * 2 ^ p < 2 ^ w :=
    Nat.lt_of_le_of_lt (Nat.div_mul_le_self _ _) x.isLt
  rw [hshift, BitVec.toNat_shiftLeft, BitVec.toNat_ushiftRight, Nat.shiftLeft_eq,
    Nat.shiftRight_eq_div_pow, Nat.mod_eq_of_lt hle]

end Dingoo.Lib
