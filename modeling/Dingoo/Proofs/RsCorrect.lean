/-
What the correction of one Reed-Solomon symbol does to a block.

Read as one string of bits, lowest bit of the first byte first, the block is a sequence
of 9-bit symbols.  Symbol `n` starts at bit `9 * n = 8 * (n + n / 8) + n % 8`: in byte
`n + n / 8` at bit `n % 8`.  So the shifted mask covers that byte and the next one, and
a correction is an exclusive or with the mask put at its symbol (`rsCorrect_bit`).

A block is determined by its bits, so everything else is algebra of exclusive or: two
corrections commute, and a correction undoes itself.
-/
import Mathlib.Data.List.Perm.Basic
import Mathlib.Data.Nat.Bitwise
import Dingoo.UBoot.RsCorrect

namespace Dingoo.Nand

variable {dat : List UInt8} {c : Nat × Nat}

/-- Bit `p` of a block read as a little-endian string of bits. -/
def blockBit (dat : List UInt8) (p : Nat) : Bool := (dat.getD (p / 8) 0).toNat.testBit (p % 8)

theorem eq_of_blockBit {dat' : List UInt8} (hlen : dat.length = dat'.length)
    (h : ∀ p < 8 * dat.length, blockBit dat p = blockBit dat' p) : dat = dat' := by
  refine List.ext_getElem hlen fun i hi hi' => ?_
  refine UInt8.toNat_inj.mp (Nat.eq_of_testBit_eq fun j => ?_)
  by_cases hj : j < 8
  · have hbit := h (8 * i + j) (by omega)
    have hdiv : (8 * i + j) / 8 = i := by omega
    have hmod : (8 * i + j) % 8 = j := by omega
    simpa only [blockBit, hdiv, hmod, List.getD_eq_getElem?_getD, List.getElem?_eq_getElem hi,
      List.getElem?_eq_getElem hi', Option.getD_some] using hbit
  · have hsmall : ∀ b : UInt8, b.toNat.testBit j = false := by
      intro b
      refine Nat.testBit_lt_two_pow (Nat.lt_of_lt_of_le b.toNat_lt ?_)
      exact Nat.pow_le_pow_right (by decide) (by omega)
    rw [hsmall, hsmall]

/-! ### One byte -/

theorem xorAt_length (dat : List UInt8) (i : Int) (v : Nat) :
    (xorAt dat i v).length = dat.length := by
  unfold xorAt
  split
  · exact List.length_modify ..
  · rfl

theorem xorAt_bit {i v p : Nat} (hv : v < 256) (hp : p < 8 * dat.length) :
    blockBit (xorAt dat i v) p
      = (blockBit dat p ^^ (decide (p / 8 = i) && v.testBit (p % 8))) := by
  have hi : p / 8 < dat.length := by omega
  have hnat : xorAt dat i v = dat.modify i (· ^^^ UInt8.ofNat v) := by simp [xorAt]
  rw [hnat]
  unfold blockBit
  rw [List.getD_eq_getElem?_getD, List.getD_eq_getElem?_getD, List.getElem?_modify,
    List.getElem?_eq_getElem hi]
  by_cases heq : i = p / 8
  · subst heq
    simp [Nat.testBit_xor, Nat.mod_eq_of_lt hv]
  · simp [heq, Ne.symm heq]

/-! ### One symbol -/

theorem jzsocRsCorrect_succ (dat : List UInt8) (n mask : Nat) :
    jzsocRsCorrect dat ((n + 1 : Nat) : Int) mask =
      if 512 ≤ n + n / 8 then dat
      else if n + n / 8 < 511 then
        xorAt (xorAt dat ((n + n / 8 : Nat) : Int) ((mask <<< (n % 8)) &&& 0xff))
          ((n + n / 8 + 1 : Nat) : Int) (((mask <<< (n % 8)) >>> 8) &&& 0xff)
      else xorAt dat ((n + n / 8 : Nat) : Int) ((mask <<< (n % 8)) &&& 0xff) := by
  have hidx : ((n + 1 : Nat) : Int) - 1 = (n : Int) := by omega
  have hshift : (n : Int) >>> (3 : Nat) = ((n / 8 : Nat) : Int) := by
    rw [Int.shiftRight_eq_div_pow]
    rfl
  have hmod : ((n : Int) % 8).toNat = n % 8 := by omega
  unfold jzsocRsCorrect
  simp only [hidx, hshift, hmod]
  by_cases h1 : 512 ≤ n + n / 8
  · rw [if_pos h1, if_pos (by omega)]
  · rw [if_neg h1, if_neg (by omega)]
    by_cases h2 : n + n / 8 < 511
    · rw [if_pos h2, if_pos (by omega)]
      rfl
    · rw [if_neg h2, if_neg (by omega)]
      rfl

theorem jzsocRsCorrect_length (dat : List UInt8) (idx : Int) (mask : Nat) :
    (jzsocRsCorrect dat idx mask).length = dat.length := by
  unfold jzsocRsCorrect
  simp only
  split
  · rfl
  · split <;> simp only [xorAt_length]

/-- The mask of symbol `n`, put at its place in the 4096 bits of the block. -/
def symbolBit (n mask p : Nat) : Bool :=
  decide (p < 4096) && (decide (9 * n ≤ p) && mask.testBit (p - 9 * n))

theorem testBit_lowByte {x q : Nat} (hq : q < 8) : (x &&& 0xff).testBit q = x.testBit q := by
  rw [Nat.testBit_and, show (0xff : Nat) = 2 ^ 8 - 1 from rfl, Nat.testBit_two_pow_sub_one]
  simp [hq]

theorem testBit_mask {mask q : Nat} (hmask : mask < 512) (hq : 9 ≤ q) :
    mask.testBit q = false := by
  have hpow : 2 ^ 9 ≤ 2 ^ q := Nat.pow_le_pow_right (by decide) hq
  exact Nat.testBit_lt_two_pow (by omega)

theorem testBit_shiftedMask {n mask i p : Nat} (hi : i = n + n / 8) (hp : 8 * i ≤ p) :
    (mask <<< (n % 8)).testBit (p - 8 * i)
      = (decide (9 * n ≤ p) && mask.testBit (p - 9 * n)) := by
  have hstart : 9 * n = 8 * i + n % 8 := by omega
  rw [Nat.testBit_shiftLeft, hstart]
  congr 1
  · exact decide_eq_decide.mpr (by omega)
  · congr 1
    omega

section

variable {n mask i p : Nat}

theorem symbolBit_first (hi : i = n + n / 8) (h : p / 8 = i) (hin : i < 512) :
    symbolBit n mask p = ((mask <<< (n % 8)) &&& 0xff).testBit (p % 8) := by
  have hyes : p < 4096 := by omega
  have hpos : p - 8 * i = p % 8 := by omega
  rw [symbolBit, ← testBit_shiftedMask hi (by omega), hpos, testBit_lowByte (by omega)]
  simp [hyes]

theorem symbolBit_second (hi : i = n + n / 8) (h : p / 8 = i + 1) (hin : i < 511) :
    symbolBit n mask p = (((mask <<< (n % 8)) >>> 8) &&& 0xff).testBit (p % 8) := by
  have hyes : p < 4096 := by omega
  have hpos : p - 8 * i = 8 + p % 8 := by omega
  rw [symbolBit, ← testBit_shiftedMask hi (by omega), hpos, testBit_lowByte (by omega),
    Nat.testBit_shiftRight]
  simp [hyes]

theorem symbolBit_outside (hmask : mask < 512) (hi : i = n + n / 8)
    (h : p / 8 < i ∨ i + 1 < p / 8 ∨ 512 ≤ p / 8) : symbolBit n mask p = false := by
  rcases h with h | h | h
  · have hno : ¬ 9 * n ≤ p := by omega
    simp [symbolBit, hno]
  · simp [symbolBit, testBit_mask hmask (by omega : 9 ≤ p - 9 * n)]
  · have hno : ¬ p < 4096 := by omega
    simp [symbolBit, hno]

/-- **A correction flips the bits of its mask at its symbol and no others.** -/
theorem jzsocRsCorrect_bit (hmask : mask < 512) (hp : p < 8 * dat.length) :
    blockBit (jzsocRsCorrect dat ((n + 1 : Nat) : Int) mask) p
      = (blockBit dat p ^^ symbolBit n mask p) := by
  obtain ⟨i, hi⟩ : ∃ i, i = n + n / 8 := ⟨_, rfl⟩
  have hbyte : ∀ x : Nat, x &&& 0xff < 256 := fun x =>
    Nat.and_lt_two_pow x (by decide : 0xff < 2 ^ 8)
  rw [jzsocRsCorrect_succ, ← hi]
  by_cases h512 : 512 ≤ i
  · rw [if_pos h512, symbolBit_outside hmask hi (by omega), Bool.xor_false]
  · rw [if_neg h512]
    by_cases h511 : i < 511
    · rw [if_pos h511, xorAt_bit (hbyte _) (by rwa [xorAt_length]), xorAt_bit (hbyte _) hp]
      by_cases h1 : p / 8 = i
      · rw [symbolBit_first hi h1 (by omega)]
        simp [h1]
      · by_cases h2 : p / 8 = i + 1
        · rw [symbolBit_second hi h2 h511]
          simp [h2]
        · rw [symbolBit_outside hmask hi (by omega)]
          simp [h1, h2]
    · -- the second byte is cut off
      rw [if_neg h511, xorAt_bit (hbyte _) hp]
      by_cases h1 : p / 8 = i
      · rw [symbolBit_first hi h1 (by omega)]
        simp [h1]
      · rw [symbolBit_outside hmask hi (by omega)]
        simp [h1]

end

/-! ### Lists of corrections -/

/-- A correction the error unit may report: a symbol counted from 1 and a 9-bit mask. -/
def Correction (c : Nat × Nat) : Prop := 1 ≤ c.1 ∧ c.1 ≤ 511 ∧ c.2 < 512

instance decidableCorrection (c : Nat × Nat) : Decidable (Correction c) :=
  inferInstanceAs (Decidable (_ ∧ _ ∧ _))

/-- Apply corrections one after the other. -/
def rsCorrectAll (dat : List UInt8) (l : List (Nat × Nat)) : List UInt8 :=
  l.foldl (fun dat c => jzsocRsCorrect dat c.1 c.2) dat

theorem Correction.bit (hc : Correction c) {p : Nat} (hp : p < 8 * dat.length) :
    blockBit (jzsocRsCorrect dat c.1 c.2) p = (blockBit dat p ^^ symbolBit (c.1 - 1) c.2 p) := by
  obtain ⟨n, hn⟩ : ∃ n, c.1 = n + 1 := ⟨c.1 - 1, by have := hc.1; omega⟩
  rw [hn]
  exact jzsocRsCorrect_bit hc.2.2 hp

theorem Correction.comm {d : Nat × Nat} (hc : Correction c) (hd : Correction d) (dat : List UInt8) :
    jzsocRsCorrect (jzsocRsCorrect dat c.1 c.2) d.1 d.2
      = jzsocRsCorrect (jzsocRsCorrect dat d.1 d.2) c.1 c.2 := by
  have hlen : (jzsocRsCorrect (jzsocRsCorrect dat c.1 c.2) d.1 d.2).length = dat.length := by
    rw [jzsocRsCorrect_length, jzsocRsCorrect_length]
  refine eq_of_blockBit (by simp only [jzsocRsCorrect_length]) fun p hp => ?_
  rw [hlen] at hp
  rw [hd.bit (by rwa [jzsocRsCorrect_length]), hc.bit hp,
    hc.bit (by rwa [jzsocRsCorrect_length]), hd.bit hp, Bool.xor_right_comm]

theorem Correction.twice (hc : Correction c) (dat : List UInt8) :
    jzsocRsCorrect (jzsocRsCorrect dat c.1 c.2) c.1 c.2 = dat := by
  have hlen : (jzsocRsCorrect (jzsocRsCorrect dat c.1 c.2) c.1 c.2).length = dat.length := by
    rw [jzsocRsCorrect_length, jzsocRsCorrect_length]
  refine eq_of_blockBit hlen fun p hp => ?_
  rw [hlen] at hp
  rw [hc.bit (by rwa [jzsocRsCorrect_length]), hc.bit hp, Bool.xor_assoc, Bool.xor_self,
    Bool.xor_false]

theorem rsCorrectAll_perm {l l' : List (Nat × Nat)} (hl : ∀ c ∈ l, Correction c)
    (h : l.Perm l') (dat : List UInt8) : rsCorrectAll dat l = rsCorrectAll dat l' :=
  h.foldl_eq' (fun c hc d hd dat => ((hl c hc).comm (hl d hd) dat)) dat

theorem rsCorrectAll_cons (dat : List UInt8) (c : Nat × Nat) (l : List (Nat × Nat)) :
    rsCorrectAll dat (c :: l) = rsCorrectAll (jzsocRsCorrect dat c.1 c.2) l := rfl

theorem rsCorrectAll_append (dat : List UInt8) (l l' : List (Nat × Nat)) :
    rsCorrectAll dat (l ++ l') = rsCorrectAll (rsCorrectAll dat l) l' :=
  List.foldl_append

theorem rsCorrectAll_twice : ∀ (l : List (Nat × Nat)) (dat : List UInt8),
    (∀ c ∈ l, Correction c) → rsCorrectAll (rsCorrectAll dat l) l = dat := by
  intro l
  induction l with
  | nil => intro dat _; rfl
  | cons c l ih =>
    intro dat hl
    have hc : Correction c := hl c (by simp)
    have hrest : ∀ d ∈ l, Correction d := fun d hd => hl d (by simp [hd])
    -- bring the second copy of `c` next to the first
    have hmove : (l ++ c :: l).Perm (c :: (l ++ l)) := List.perm_middle
    have hall : ∀ d ∈ l ++ c :: l, Correction d := by
      intro d hd
      rcases List.mem_append.mp hd with h | h
      · exact hrest d h
      · exact hl d h
    calc rsCorrectAll (rsCorrectAll dat (c :: l)) (c :: l)
        = rsCorrectAll (jzsocRsCorrect dat c.1 c.2) (l ++ c :: l) := by
          rw [rsCorrectAll_append]
          rfl
      _ = rsCorrectAll (jzsocRsCorrect (jzsocRsCorrect dat c.1 c.2) c.1 c.2) (l ++ l) := by
          rw [rsCorrectAll_perm hall hmove, rsCorrectAll_cons]
      _ = dat := by rw [hc.twice, rsCorrectAll_append, ih dat hrest]

/-- **The symbol correction is an exclusive or with the mask at its symbol; corrections can be
made in any order and undo themselves; the three copies of the routine agree.** -/
theorem rs_correct_symbols :
    (∀ dat : List UInt8, dat.length = 512 → ∀ idx mask : Nat, 1 ≤ idx → idx ≤ 511 →
      mask < 512 → (jzsocRsCorrect dat idx mask).length = 512 ∧ ∀ p < 4096,
        blockBit (jzsocRsCorrect dat idx mask) p
          = (blockBit dat p ^^
              (decide (9 * (idx - 1) ≤ p ∧ p ≤ 9 * (idx - 1) + 8) &&
                mask.testBit (p - 9 * (idx - 1))))) ∧
    (∀ dat : List UInt8, dat.length = 512 → ∀ l : List (Nat × Nat), (∀ c ∈ l, Correction c) →
      (∀ l', l.Perm l' → rsCorrectAll dat l = rsCorrectAll dat l') ∧
      rsCorrectAll (rsCorrectAll dat l) l = dat) ∧
    ∀ (dat : List UInt8) (idx : Int) (mask : Nat),
      UBoot.jzsocRsCorrect dat idx mask = jzsocRsCorrect dat idx mask ∧
      NandSpl.rsCorrect dat idx mask = jzsocRsCorrect dat idx mask := by
  refine ⟨fun dat hdat idx mask h1 h2 hmask => ?_, fun dat _ l hl => ?_,
    fun dat idx mask => ⟨rfl, rfl⟩⟩
  · have hc : Correction (idx, mask) := ⟨h1, h2, hmask⟩
    refine ⟨(jzsocRsCorrect_length dat _ _).trans hdat, fun p hp => ?_⟩
    rw [hc.bit (by omega)]
    congr 1
    by_cases hlast : p ≤ 9 * (idx - 1) + 8
    · simp [symbolBit, hp, hlast]
    · -- beyond the symbol the mask has no bit
      simp [symbolBit, testBit_mask hmask (by omega : 9 ≤ p - 9 * (idx - 1))]
  · exact ⟨fun l' h => rsCorrectAll_perm hl h dat, rsCorrectAll_twice l dat hl⟩

/-- A correction of the first symbol and one of the symbol cut by the end of the block. -/
theorem rs_correct_symbols_cut :
    (List.replicate 512 (0 : UInt8)).length = 512 ∧
    (∀ c ∈ [(1, 3), (456, 511)], Correction c) ∧
    rsCorrectAll (rsCorrectAll (List.replicate 512 0) [(1, 3), (456, 511)]) [(1, 3), (456, 511)]
      = List.replicate 512 0 :=
  ⟨List.length_replicate, by decide,
    (rs_correct_symbols.2.1 _ List.length_replicate _ (by decide)).2⟩

end Dingoo.Nand
