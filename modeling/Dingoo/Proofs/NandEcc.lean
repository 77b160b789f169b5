/-
What the Hamming correction does to a block with up to two wrong bits.

Everything in the code is exclusive or: flipping a bit of the data changes the code by a
syndrome that depends on the bit's position only (`nandCalculateEcc_flip`).  So the
difference of the two codes the correction is given is the exclusive or of the syndromes
of the wrong bits, be they bits of the data or of the stored code.

The syndrome of a data bit has one bit of each of the eleven pairs, which is what the
correction looks for, and the set ones spell the bit's position.  The syndrome of a code
bit is that bit.  Both have an odd number of bits, so two of them together have an even
number, and none only if they are the same: that is neither a pattern of eleven nor a
single bit, and the correction gives up (`correct_even`).
-/
import Mathlib.Data.Fintype.Prod
import Mathlib.Data.Fintype.Sum
import Mathlib.Tactic.IntervalCases
import Dingoo.Linux.NandEcc

namespace Dingoo.NandEcc

variable {readEcc calcEcc d : Ecc} {x : DataBit} {e : Err}

/-! ### Parities under exclusive or -/

def Regs.xor (r d : Regs) : Regs := ⟨r.reg1 ^^^ d.reg1, r.reg2 ^^^ d.reg2, r.reg3 ^^^ d.reg3⟩

def Ecc.xor (e d : Ecc) : Ecc := ⟨e.code0 ^^^ d.code0, e.code1 ^^^ d.code1, e.code2 ^^^ d.code2⟩

theorem xor_swap (a b c : BitVec 8) : a ^^^ b ^^^ c = a ^^^ c ^^^ b := by
  rw [BitVec.xor_assoc, BitVec.xor_comm b c, ← BitVec.xor_assoc]

theorem xor_and (a b m : BitVec 8) : (a ^^^ b) &&& m = (a &&& m) ^^^ (b &&& m) := by
  refine BitVec.eq_of_getLsbD_eq fun i hi => ?_
  simp [Bool.and_xor_distrib_right]

/-- The column parities of bit `j` of a byte, and the parity of the byte. -/
def column (j : Fin 8) : BitVec 8 := nandEccPrecalcTable.getD (1 <<< j.val) 0

/-- The exclusive or of the columns of the lowest bits set in a byte. -/
def columns : Nat → BitVec 8 → BitVec 8
  | 0, _ => 0
  | n + 1, b =>
    columns n b ^^^ if b.getLsbD n then nandEccPrecalcTable.getD (1 <<< n) 0 else 0

theorem columns_xor (a b : BitVec 8) : ∀ n, columns n (a ^^^ b) = columns n a ^^^ columns n b := by
  intro n
  induction n with
  | zero => exact (BitVec.xor_self (x := 0)).symm
  | succ n ih =>
    have hbit : ∀ (x y : Bool) (c : BitVec 8), (if (x ^^ y) = true then c else 0)
        = (if x = true then c else 0) ^^^ if y = true then c else 0 := by
      intro x y c
      cases x <;> cases y <;> simp
    simp only [columns, ih, BitVec.getLsbD_xor, hbit]
    rw [BitVec.xor_assoc, BitVec.xor_assoc, ← BitVec.xor_assoc (columns n b),
      ← BitVec.xor_assoc _ (columns n b), BitVec.xor_comm (columns n b)]

theorem table_columns : ∀ b : BitVec 8, nandEccPrecalcTable.getD b.toNat 0 = columns 8 b := by
  decide +kernel

theorem table_flip (b : BitVec 8) (j : Fin 8) :
    nandEccPrecalcTable.getD (b ^^^ (1#8 <<< j.val)).toNat 0
      = nandEccPrecalcTable.getD b.toNat 0 ^^^ column j := by
  have hone : ∀ j : Fin 8, columns 8 (1#8 <<< j.val) = column j := by decide
  rw [table_columns, columns_xor, ← table_columns, hone]

/-- What a flipped bit `j` of byte `i` adds to the parities. -/
def delta (i : Nat) (j : Fin 8) : Regs :=
  ⟨column j &&& 0x3f, ~~~(BitVec.ofNat 8 i), BitVec.ofNat 8 i⟩

theorem eccStep_xor (i : Nat) (b : BitVec 8) (r d : Regs) :
    eccStep i b (r.xor d) = (eccStep i b r).xor d := by
  simp only [eccStep]
  split
  · simp only [Regs.xor, xor_swap _ d.reg1, xor_swap _ d.reg2, xor_swap _ d.reg3]
  · simp only [Regs.xor, xor_swap _ d.reg1]

theorem eccLoop_xor : ∀ (l : List (BitVec 8)) (i : Nat) (r d : Regs),
    eccLoop i l (r.xor d) = (eccLoop i l r).xor d := by
  intro l
  induction l with
  | nil => intro i r d; rfl
  | cons b l ih =>
    intro i r d
    rw [eccLoop, eccLoop, eccStep_xor, ih]

theorem column_odd (idx : BitVec 8) (j : Fin 8) :
    ((idx ^^^ column j) &&& 0x40 ≠ 0) ↔ ¬ (idx &&& 0x40 ≠ 0) := by
  have hcolumn : ∀ j : Fin 8, column j &&& 0x40 = 0x40 := by decide
  have hbit : idx &&& 0x40 = 0x40 ∨ idx &&& 0x40 = 0 := by
    rw [show (0x40 : BitVec 8) = BitVec.twoPow 8 6 from rfl, BitVec.and_twoPow]
    split
    · exact Or.inl rfl
    · exact Or.inr rfl
  rw [xor_and, hcolumn]
  rcases hbit with h | h
  · rw [h]
    decide
  · rw [h]
    decide

theorem eccStep_flip (i : Nat) (b : BitVec 8) (j : Fin 8) (r : Regs) :
    eccStep i (b ^^^ (1#8 <<< j.val)) r = (eccStep i b r).xor (delta i j) := by
  simp only [eccStep, table_flip]
  generalize nandEccPrecalcTable.getD b.toNat 0 = idx
  by_cases hodd : idx &&& 0x40 ≠ 0
  · have hflip : ¬ ((idx ^^^ column j) &&& 0x40 ≠ 0) := fun h => (column_odd idx j).mp h hodd
    rw [if_pos hodd, if_neg hflip, xor_and]
    simp only [Regs.xor, delta, BitVec.xor_assoc, BitVec.xor_self, BitVec.xor_zero]
  · have hflip : (idx ^^^ column j) &&& 0x40 ≠ 0 := (column_odd idx j).mpr hodd
    rw [if_neg hodd, if_pos hflip, xor_and]
    simp only [Regs.xor, delta, BitVec.xor_assoc]

theorem eccLoop_flip (j : Fin 8) : ∀ (l : List (BitVec 8)) (i k : Nat) (r : Regs),
    k < l.length →
    eccLoop i (l.modify k (· ^^^ (1#8 <<< j.val))) r = (eccLoop i l r).xor (delta (i + k) j) := by
  intro l
  induction l with
  | nil => intro i k r hk; exact absurd hk (by simp)
  | cons b l ih =>
    intro i k r hk
    cases k with
    | zero =>
      rw [List.modify_zero_cons, eccLoop, eccLoop, eccStep_flip, eccLoop_xor]
      rfl
    | succ k =>
      rw [List.modify_succ_cons, eccLoop, eccLoop, ih _ _ _ (by simpa using hk),
        Nat.add_right_comm, Nat.add_assoc]

theorem lineHigh_xor (r d : Regs) : lineHigh (r.xor d) = lineHigh r ^^^ lineHigh d := by
  refine BitVec.eq_of_getLsbD_eq fun i hi => ?_
  interval_cases i <;> simp [lineHigh, Regs.xor]

theorem lineLow_xor (r d : Regs) : lineLow (r.xor d) = lineLow r ^^^ lineLow d := by
  refine BitVec.eq_of_getLsbD_eq fun i hi => ?_
  interval_cases i <;> simp [lineLow, Regs.xor]

theorem columnCode_xor (a b : BitVec 8) :
    ((a ^^^ b) <<< 2) ||| 0x03#8 = ((a <<< 2) ||| 0x03#8) ^^^ (b <<< 2) := by
  refine BitVec.eq_of_getLsbD_eq fun i hi => ?_
  interval_cases i <;> simp

theorem not_xor (a b : BitVec 8) : ~~~(a ^^^ b) = ~~~a ^^^ b := by
  refine BitVec.eq_of_getLsbD_eq fun i hi => ?_
  simp [hi]

/-! ### Syndromes -/

theorem Block.ext_getD {b c : Block} (h : ∀ k : Fin 256, b.bytes.getD k 0 = c.bytes.getD k 0) :
    b = c := by
  obtain ⟨b, hb⟩ := b
  obtain ⟨c, hc⟩ := c
  have hbc : b = c := by
    refine List.ext_getElem (hb.trans hc.symm) fun k hkb hkc => ?_
    have hk := h ⟨k, hb ▸ hkb⟩
    simpa only [List.getD_eq_getElem?_getD, List.getElem?_eq_getElem hkb,
      List.getElem?_eq_getElem hkc, Option.getD_some] using hk
  subst hbc
  rfl

/-- A bit of the data: the byte's index in the block and the bit's in the byte. -/
abbrev DataBit := Fin 256 × Fin 8

def Block.flip (dat : Block) (x : DataBit) : Block := dat.xorAt x.1 (1#8 <<< x.2.val)

/-- What flipping a bit of the data does to the code. -/
def dataSyndrome (x : DataBit) : Ecc :=
  ⟨lineHigh (delta x.1 x.2), lineLow (delta x.1 x.2), (column x.2 &&& 0x3f) <<< 2⟩

theorem nandCalculateEcc_flip (dat : Block) (x : DataBit) :
    nandCalculateEcc (dat.flip x) = (nandCalculateEcc dat).xor (dataSyndrome x) := by
  have hloop := eccLoop_flip x.2 dat.bytes 0 x.1 ⟨0, 0, 0⟩ (by rw [dat.size]; exact x.1.isLt)
  rw [Nat.zero_add] at hloop
  unfold nandCalculateEcc
  simp only [Block.flip, Block.xorAt, hloop, lineHigh_xor, lineLow_xor]
  simp only [Regs.xor, not_xor, columnCode_xor]
  rfl

/-- A bit of the code that is used: all of the first two bytes, the upper six of the third. -/
def codeBit (n : Fin 22) : Ecc :=
  if n.val < 8 then ⟨1#8 <<< n.val, 0, 0⟩
  else if n.val < 16 then ⟨0, 1#8 <<< (n.val - 8), 0⟩
  else ⟨0, 0, 1#8 <<< (n.val - 14)⟩

/-- The bits of a code that are used. -/
def Ecc.used (e : Ecc) : Ecc := { e with code2 := e.code2 &&& 0xfc#8 }

/-- A bit that can be wrong. -/
abbrev Err := DataBit ⊕ Fin 22

def syndrome : Err → Ecc
  | .inl x => dataSyndrome x
  | .inr n => codeBit n

/-! ### The correction, from the difference of the codes -/

/-- The parity of the lowest bits of a byte. -/
def parityOf : Nat → BitVec 8 → Bool
  | 0, _ => false
  | n + 1, d => parityOf n d ^^ d.getLsbD n

theorem parityOf_xor (a b : BitVec 8) :
    ∀ n, parityOf n (a ^^^ b) = (parityOf n a ^^ parityOf n b) := by
  intro n
  induction n with
  | zero => rfl
  | succ n ih =>
    simp only [parityOf, ih, BitVec.getLsbD_xor, Bool.xor_assoc, Bool.xor_left_comm]

/-- The parity of the bits of a code. -/
def Ecc.parity (e : Ecc) : Bool := parityOf 8 e.code0 ^^ parityOf 8 e.code1 ^^ parityOf 8 e.code2

theorem Ecc.parity_xor (e d : Ecc) : (e.xor d).parity = (e.parity ^^ d.parity) := by
  simp only [Ecc.parity, Ecc.xor, parityOf_xor, Bool.xor_assoc, Bool.xor_left_comm]

/-- The bits set in a byte. -/
def weight (d : BitVec 8) : Nat := countBits 8 d 0

theorem countBits_add : ∀ (n : Nat) (d : BitVec 8) (i : Nat),
    countBits n d i = i + countBits n d 0 := by
  intro n
  induction n with
  | zero => intro d i; rfl
  | succ n ih =>
    intro d i
    rw [countBits, countBits]
    split
    · rfl
    · rw [ih _ (if d &&& 0x01 ≠ 0 then i + 1 else i), ih _ (if d &&& 0x01 ≠ 0 then 0 + 1 else 0)]
      split <;> omega

/-- Weight and parity of all bytes.  A byte with one bit of each of its four pairs is even, and
with one bit of each of three pairs it is odd. -/
theorem byte_parities : ∀ d : BitVec 8, weight d % 2 = (parityOf 8 d).toNat ∧
    weight (d &&& 0xfc#8) ≤ weight d ∧ (weight d = 0 → d = 0) ∧
    ((d ^^^ (d >>> 1)) &&& 0x55#8 = 0x55#8 → parityOf 8 d = false) ∧
    ((d ^^^ (d >>> 1)) &&& 0x54#8 = 0x54#8 → parityOf 8 (d &&& 0xfc#8) = true) := by
  decide +kernel

theorem weight_mod_two (d : BitVec 8) : weight d % 2 = (parityOf 8 d).toNat := (byte_parities d).1

theorem weight_used_le (d : BitVec 8) : weight (d &&& 0xfc#8) ≤ weight d := (byte_parities d).2.1

theorem eq_zero_of_weight (d : BitVec 8) : weight d = 0 → d = 0 := (byte_parities d).2.2.1

theorem parity_of_pairs (d : BitVec 8) :
    (d ^^^ (d >>> 1)) &&& 0x55#8 = 0x55#8 → parityOf 8 d = false := (byte_parities d).2.2.2.1

theorem parity_of_threePairs (d : BitVec 8) :
    (d ^^^ (d >>> 1)) &&& 0x54#8 = 0x54#8 → parityOf 8 (d &&& 0xfc#8) = true :=
  (byte_parities d).2.2.2.2

/-- The number of bits the correction counts. -/
def Ecc.weight (e : Ecc) : Nat :=
  NandEcc.weight e.code0 + NandEcc.weight e.code1 + NandEcc.weight e.code2

theorem countBits_ecc (e : Ecc) :
    countBits 8 e.code2 (countBits 8 e.code1 (countBits 8 e.code0 0)) = e.weight := by
  rw [countBits_add 8 e.code2, countBits_add 8 e.code1]
  rfl

/-- One bit of each of the eleven pairs is set. -/
def Ecc.Paired (e : Ecc) : Prop :=
  (e.code0 ^^^ (e.code0 >>> 1)) &&& 0x55#8 = 0x55#8 ∧
    (e.code1 ^^^ (e.code1 >>> 1)) &&& 0x55#8 = 0x55#8 ∧
    (e.code2 ^^^ (e.code2 >>> 1)) &&& 0x54#8 = 0x54#8

instance (e : Ecc) : Decidable e.Paired := inferInstanceAs (Decidable (_ ∧ _ ∧ _))

/-- The byte the set bits of the pairs spell. -/
def Ecc.address (e : Ecc) : BitVec 8 :=
  (gather 4 e.code1 0x80 (gather 4 e.code0 0x80 0x80 0).2 (gather 4 e.code0 0x80 0x80 0).1).1

/-- The bit the set bits of the pairs spell. -/
def Ecc.bit (e : Ecc) : BitVec 8 := (gather 3 e.code2 0x80 0x04 0).1

theorem correct_eq (dat : Block) (hd : calcEcc.xor readEcc = d) :
    jzsocNandHmCorrectData dat readEcc calcEcc =
      if d = ⟨0, 0, 0⟩ then (0, dat, readEcc)
      else if d.Paired then (0, dat.xorAt d.address.toNat (0x01#8 <<< d.bit.toNat), readEcc)
      else if d.weight = 1 then (0, dat, calcEcc)
      else (-1, dat, readEcc) := by
  subst hd
  have hzero : ∀ d : Ecc, d.code0 ||| d.code1 ||| d.code2 = 0 ↔ d = ⟨0, 0, 0⟩ := by
    intro d
    cases d
    simp only [BitVec.ofNat_eq_ofNat, BitVec.or_eq_zero_iff, Ecc.mk.injEq, and_assoc]
  rw [← countBits_ecc]
  simp only [← hzero]
  rfl

theorem Ecc.weight_ne_one {e : Ecc} (heven : e.used.parity = false) (hne : e.used ≠ ⟨0, 0, 0⟩) :
    e.weight ≠ 1 := by
  intro hone
  have h0 := weight_mod_two e.code0
  have h1 := weight_mod_two e.code1
  have h2 := weight_mod_two (e.code2 &&& 0xfc#8)
  have hle := weight_used_le e.code2
  -- the used bits are at most one, and evenly many: none
  have hzero : NandEcc.weight e.code0 = 0 ∧ NandEcc.weight e.code1 = 0 ∧
      NandEcc.weight (e.code2 &&& 0xfc#8) = 0 := by
    simp only [Ecc.weight] at hone
    simp only [Ecc.parity, Ecc.used] at heven
    revert heven h0 h1 h2
    cases parityOf 8 e.code0 <;> cases parityOf 8 e.code1 <;>
      cases parityOf 8 (e.code2 &&& 0xfc#8) <;> simp <;> omega
  apply hne
  rw [Ecc.used, eq_zero_of_weight _ hzero.1, eq_zero_of_weight _ hzero.2.1,
    eq_zero_of_weight _ hzero.2.2]

theorem Ecc.Paired.odd {e : Ecc} (h : e.Paired) : e.used.parity = true := by
  rw [Ecc.parity, Ecc.used, parity_of_pairs _ h.1, parity_of_pairs _ h.2.1,
    parity_of_threePairs _ h.2.2]
  rfl

theorem correct_even (dat : Block) (hd : calcEcc.xor readEcc = d) (heven : d.used.parity = false)
    (hne : d.used ≠ ⟨0, 0, 0⟩) :
    jzsocNandHmCorrectData dat readEcc calcEcc = (-1, dat, readEcc) := by
  have hzero : d ≠ ⟨0, 0, 0⟩ := by
    rintro rfl
    exact hne rfl
  have hpair : ¬ d.Paired := fun h => Bool.false_ne_true (heven.symm.trans h.odd)
  rw [correct_eq dat hd, if_neg hzero, if_neg hpair, if_neg (Ecc.weight_ne_one heven hne)]

/-! ### One wrong bit -/

/-- The column parities of bit `j` spell `j`, whatever the unused bits are. -/
theorem columnCode_spells {j : Fin 8} {d : BitVec 8}
    (h : d &&& 0xfc#8 = (column j &&& 0x3f) <<< 2) :
    (d ^^^ (d >>> 1)) &&& 0x54#8 = 0x54#8 ∧ ((gather 3 d 0x80 0x04 0).1).toNat = j.val := by
  have hunused : ∀ d : BitVec 8,
      (d ^^^ (d >>> 1)) &&& 0x54#8 = ((d &&& 0xfc#8) ^^^ ((d &&& 0xfc#8) >>> 1)) &&& 0x54#8 ∧
        gather 3 d 0x80 0x04 0 = gather 3 (d &&& 0xfc#8) 0x80 0x04 0 := by
    decide +kernel
  have hcolumn : ∀ j : Fin 8,
      (((column j &&& 0x3f) <<< 2) ^^^ (((column j &&& 0x3f) <<< 2) >>> 1)) &&& 0x54#8 = 0x54#8 ∧
        ((gather 3 ((column j &&& 0x3f) <<< 2) 0x80 0x04 0).1).toNat = j.val := by
    decide +kernel
  rw [(hunused d).1, (hunused d).2, h]
  exact hcolumn j

theorem line_spells : ∀ k : BitVec 8,
    (lineHigh ⟨0, ~~~k, k⟩ ^^^ (lineHigh ⟨0, ~~~k, k⟩ >>> 1)) &&& 0x55#8 = 0x55#8 ∧
      (lineLow ⟨0, ~~~k, k⟩ ^^^ (lineLow ⟨0, ~~~k, k⟩ >>> 1)) &&& 0x55#8 = 0x55#8 ∧
      (Ecc.address ⟨lineHigh ⟨0, ~~~k, k⟩, lineLow ⟨0, ~~~k, k⟩, 0⟩) = k := by
  decide +kernel

theorem spells (hx : d.used = dataSyndrome x) :
    d.Paired ∧ d.address.toNat = x.1.val ∧ d.bit.toNat = x.2.val := by
  have hline := line_spells (BitVec.ofNat 8 x.1)
  have h0 : d.code0 = lineHigh ⟨0, ~~~(BitVec.ofNat 8 x.1), BitVec.ofNat 8 x.1⟩ :=
    congrArg Ecc.code0 hx
  have h1 : d.code1 = lineLow ⟨0, ~~~(BitVec.ofNat 8 x.1), BitVec.ofNat 8 x.1⟩ :=
    congrArg Ecc.code1 hx
  have hcolumn := columnCode_spells (congrArg Ecc.code2 hx)
  rw [← h0, ← h1] at hline
  refine ⟨⟨hline.1, hline.2.1, hcolumn.1⟩, ?_, hcolumn.2⟩
  show (Ecc.address ⟨d.code0, d.code1, 0⟩).toNat = _
  rw [hline.2.2, BitVec.toNat_ofNat, Nat.mod_eq_of_lt x.1.isLt]

theorem correct_data (dat : Block) (hd : calcEcc.xor readEcc = d) (hx : d.used = dataSyndrome x) :
    jzsocNandHmCorrectData dat readEcc calcEcc = (0, dat.flip x, readEcc) := by
  obtain ⟨hpair, haddr, hbit⟩ := spells hx
  have hzero : d ≠ ⟨0, 0, 0⟩ := by
    rintro rfl
    exact absurd hpair (by decide)
  rw [correct_eq dat hd, if_neg hzero, if_pos hpair, haddr, hbit]
  rfl

theorem codeBit_single : ∀ n : Fin 22, codeBit n ≠ ⟨0, 0, 0⟩ ∧ ¬ (codeBit n).Paired ∧
    (codeBit n).weight = 1 ∧ (codeBit n).used = codeBit n ∧ (codeBit n).parity = true := by
  decide +kernel

theorem correct_code (dat : Block) (n : Fin 22) (hd : calcEcc.xor readEcc = codeBit n) :
    jzsocNandHmCorrectData dat readEcc calcEcc = (0, dat, calcEcc) := by
  obtain ⟨hzero, hpair, hone, -⟩ := codeBit_single n
  rw [correct_eq dat hd, if_neg hzero, if_neg hpair, if_pos hone]

/-! ### The bits that differ -/

def Ecc.bitAt (e : Ecc) (n : Fin 22) : Bool :=
  if n.val < 8 then e.code0.getLsbD n.val
  else if n.val < 16 then e.code1.getLsbD (n.val - 8)
  else e.code2.getLsbD (n.val - 14)

/-- A bit of the data or a used bit of the code, as read from the flash. -/
def bitAt (p : Block × Ecc) : Err → Bool
  | .inl x => (p.1.bytes.getD x.1 0).getLsbD x.2
  | .inr n => p.2.bitAt n

/-- The bits in which two readings differ. -/
def differs (p q : Block × Ecc) : Finset Err := Finset.univ.filter fun e => bitAt p e ≠ bitAt q e

theorem mem_differs {p q : Block × Ecc} : e ∈ differs p q ↔ bitAt p e ≠ bitAt q e := by
  simp only [differs, Finset.mem_filter, Finset.mem_univ, true_and]

/-- One bit of what is read goes wrong. -/
def spoil : Err → Block × Ecc → Block × Ecc
  | .inl x, p => (p.1.flip x, p.2)
  | .inr n, p => (p.1, p.2.xor (codeBit n))

theorem Ecc.bitAt_xor (e d : Ecc) (n : Fin 22) : (e.xor d).bitAt n = (e.bitAt n ^^ d.bitAt n) := by
  simp only [Ecc.bitAt, Ecc.xor]
  split
  · exact BitVec.getLsbD_xor
  · split
    · exact BitVec.getLsbD_xor
    · exact BitVec.getLsbD_xor

theorem codeBit_bitAt : ∀ m n : Fin 22, (codeBit n).bitAt m = decide (m = n) := by
  decide +kernel

theorem oneBit_getLsbD : ∀ i j : Fin 8, (1#8 <<< j.val).getLsbD i.val = decide (i = j) := by
  decide

theorem bitAt_flip (dat : Block) (x y : DataBit) :
    ((dat.flip x).bytes.getD y.1 0).getLsbD y.2
      = ((dat.bytes.getD y.1 0).getLsbD y.2 ^^ decide (y = x)) := by
  have hsize := dat.size
  have hlt := y.1.isLt
  have hdat : dat.bytes[y.1.val]? = some (dat.bytes.getD y.1 0) := by
    rw [List.getD_eq_getElem?_getD, List.getElem?_eq_getElem (by omega)]
    rfl
  have hflip : (dat.flip x).bytes.getD y.1 0 = (dat.flip x).bytes[y.1.val]?.getD 0 :=
    List.getD_eq_getElem?_getD
  rw [hflip]
  simp only [Block.flip, Block.xorAt, List.getElem?_modify, hdat]
  show (if x.1.val = y.1.val then dat.bytes.getD y.1 0 ^^^ (1#8 <<< x.2.val)
    else dat.bytes.getD y.1 0).getLsbD y.2 = _
  by_cases hk : x.1 = y.1
  · rw [if_pos (congrArg Fin.val hk), BitVec.getLsbD_xor, oneBit_getLsbD]
    simp [hk, Prod.ext_iff]
  · rw [if_neg (Fin.val_ne_of_ne hk)]
    simp [Prod.ext_iff, Ne.symm hk]

theorem bitAt_spoil (e : Err) (p : Block × Ecc) (y : Err) :
    bitAt (spoil e p) y = (bitAt p y ^^ decide (y = e)) := by
  cases e with
  | inl x =>
    cases y with
    | inl y => simpa [bitAt, spoil] using bitAt_flip p.1 x y
    | inr n => simp [bitAt, spoil]
  | inr n =>
    cases y with
    | inl y => simp [bitAt, spoil]
    | inr m => simp [bitAt, spoil, Ecc.bitAt_xor, codeBit_bitAt]

theorem eq_of_bitAt {p q : Block × Ecc} (h : ∀ e, bitAt p e = bitAt q e) :
    p.1 = q.1 ∧ p.2.used = q.2.used := by
  constructor
  · have hbyte : ∀ k : Fin 256, p.1.bytes.getD k 0 = q.1.bytes.getD k 0 := fun k =>
      BitVec.eq_of_getLsbD_eq fun j hj => h (.inl (k, ⟨j, hj⟩))
    exact Block.ext_getD hbyte
  · have h0 : p.2.code0 = q.2.code0 := by
      refine BitVec.eq_of_getLsbD_eq fun j hj => ?_
      have hbit := h (.inr ⟨j, by omega⟩)
      simpa only [bitAt, Ecc.bitAt, if_pos hj] using hbit
    have h1 : p.2.code1 = q.2.code1 := by
      refine BitVec.eq_of_getLsbD_eq fun j hj => ?_
      have hbit := h (.inr ⟨j + 8, by omega⟩)
      simpa [bitAt, Ecc.bitAt, show j + 8 < 16 by omega] using hbit
    have h2 : p.2.code2 &&& 0xfc#8 = q.2.code2 &&& 0xfc#8 := by
      refine BitVec.eq_of_getLsbD_eq fun j hj => ?_
      by_cases hlow : j < 2
      · interval_cases j <;> simp
      · have hbit := h (.inr ⟨j + 14, by omega⟩)
        have hbit : p.2.code2.getLsbD j = q.2.code2.getLsbD j := by
          simpa [bitAt, Ecc.bitAt, show ¬ j + 14 < 8 by omega, show ¬ j + 14 < 16 by omega]
            using hbit
        rw [BitVec.getLsbD_and, BitVec.getLsbD_and, hbit]
    rw [Ecc.used, Ecc.used, h0, h1, h2]

theorem eq_of_differs_single {p q : Block × Ecc} (h : differs p q = {e}) : p.1 = (spoil e q).1 := by
  refine (eq_of_bitAt fun y => ?_).1
  have hy : bitAt p y ≠ bitAt q y ↔ y = e := by
    rw [← mem_differs, h, Finset.mem_singleton]
  rw [bitAt_spoil]
  by_cases hye : y = e
  · have hne := hy.mpr hye
    revert hne
    cases bitAt p y <;> cases bitAt q y <;> simp [hye]
  · have heq := not_not.mp (mt hy.mp hye)
    simp [heq, hye]

theorem differs_spoil (e : Err) (p : Block × Ecc) : differs p (spoil e p) = {e} := by
  ext y
  rw [mem_differs, bitAt_spoil, Finset.mem_singleton]
  by_cases hye : y = e <;> simp [hye]

theorem differs_spoil_two {e' : Err} (hne : e ≠ e') (p : Block × Ecc) :
    differs p (spoil e' (spoil e p)) = {e, e'} := by
  ext y
  rw [mem_differs, bitAt_spoil, bitAt_spoil, Finset.mem_insert, Finset.mem_singleton]
  by_cases hye : y = e
  · simp [hye, hne]
  · by_cases hye' : y = e' <;> simp [hye, hye', Ne.symm hne]

/-! ### The difference of the codes is the syndrome of the wrong bits -/

theorem Ecc.used_xor (e d : Ecc) : (e.xor d).used = e.used.xor d.used := by
  simp only [Ecc.used, Ecc.xor, xor_and]

theorem Ecc.xor_swap (e d f : Ecc) : (e.xor d).xor f = (e.xor f).xor d := by
  simp only [Ecc.xor, NandEcc.xor_swap _ d.code0, NandEcc.xor_swap _ d.code1,
    NandEcc.xor_swap _ d.code2]

theorem Ecc.xor_assoc (e d f : Ecc) : (e.xor d).xor f = e.xor (d.xor f) := by
  simp only [Ecc.xor, BitVec.xor_assoc]

theorem Ecc.xor_self (e : Ecc) : e.xor e = ⟨0, 0, 0⟩ := by
  simp only [Ecc.xor, BitVec.xor_self]
  rfl

theorem Ecc.xor_zero (e : Ecc) : e.xor ⟨0, 0, 0⟩ = e := by
  simp only [Ecc.xor, BitVec.ofNat_eq_ofNat, BitVec.xor_zero]

theorem Ecc.zero_xor (e : Ecc) : Ecc.xor ⟨0, 0, 0⟩ e = e := by
  simp only [Ecc.xor, BitVec.ofNat_eq_ofNat, BitVec.zero_xor]

theorem Ecc.eq_of_xor {e : Ecc} (h : e.xor d = ⟨0, 0, 0⟩) : e = d := by
  rw [← Ecc.zero_xor d, ← h, Ecc.xor_assoc, Ecc.xor_self, Ecc.xor_zero]

theorem syndrome_odd (e : Err) : (syndrome e).used = syndrome e ∧ (syndrome e).parity = true := by
  have hcolumn : ∀ j : Fin 8,
      ((column j &&& 0x3f) <<< 2) &&& 0xfc#8 = (column j &&& 0x3f) <<< 2 := by
    decide
  cases e with
  | inl x =>
    have hused : (dataSyndrome x).used = dataSyndrome x := by
      rw [Ecc.used, dataSyndrome, hcolumn]
    refine ⟨hused, ?_⟩
    rw [syndrome, ← hused]
    exact (spells hused).1.odd
  | inr n => exact (codeBit_single n).2.2.2

/-- What is left of the stored code once the code of the data is taken out. -/
def syndromeOf (p : Block × Ecc) : Ecc := ((nandCalculateEcc p.1).xor p.2).used

theorem syndromeOf_spoil (e : Err) (p : Block × Ecc) :
    syndromeOf (spoil e p) = (syndromeOf p).xor (syndrome e) := by
  cases e with
  | inl x =>
    rw [syndromeOf, spoil, nandCalculateEcc_flip, Ecc.xor_swap, Ecc.used_xor]
    exact congrArg _ (syndrome_odd (.inl x)).1
  | inr n =>
    rw [syndromeOf, spoil, ← Ecc.xor_assoc, Ecc.used_xor]
    exact congrArg _ (syndrome_odd (.inr n)).1

theorem syndrome_injective {e' : Err} (h : syndrome e = syndrome e') : e = e' := by
  have hcross : ∀ (x : DataBit) (n : Fin 22), dataSyndrome x ≠ codeBit n := by
    intro x n hxn
    have hpair := (spells (syndrome_odd (.inl x)).1).1
    rw [syndrome, hxn] at hpair
    exact (codeBit_single n).2.1 hpair
  cases e with
  | inl x =>
    cases e' with
    | inl y =>
      obtain ⟨-, hk, hj⟩ := spells (syndrome_odd (.inl x)).1
      obtain ⟨-, hk', hj'⟩ := spells (syndrome_odd (.inl y)).1
      rw [h] at hk hj
      exact congrArg _ (Prod.ext (Fin.ext (hk.symm.trans hk')) (Fin.ext (hj.symm.trans hj')))
    | inr n => exact absurd h (hcross x n)
  | inr n =>
    cases e' with
    | inl y => exact absurd h.symm (hcross y n)
    | inr m =>
      have hbit := codeBit_bitAt n n
      rw [show codeBit n = codeBit m from h, codeBit_bitAt, decide_eq_decide] at hbit
      exact congrArg _ (hbit.mpr rfl)

/-- What is read with the bits of `l` wrong has their syndromes on top. -/
theorem syndromeOf_differs : ∀ (l : List Err) (p q : Block × Ecc), l.Nodup →
    (∀ e, e ∈ differs p q ↔ e ∈ l) →
    syndromeOf q = (l.map syndrome).foldl Ecc.xor (syndromeOf p) := by
  intro l
  induction l with
  | nil =>
    intro p q _ h
    have hbits : ∀ e, bitAt p e = bitAt q e := by
      intro e
      by_contra hne
      have he := h e
      rw [mem_differs] at he
      exact List.not_mem_nil (he.mp hne)
    obtain ⟨hdat, hecc⟩ := eq_of_bitAt hbits
    show ((nandCalculateEcc q.1).xor q.2).used = ((nandCalculateEcc p.1).xor p.2).used
    rw [Ecc.used_xor, Ecc.used_xor, hdat, hecc]
  | cons e l ih =>
    intro p q hl h
    obtain ⟨hel, hl⟩ := List.nodup_cons.mp hl
    -- with `e` spoilt in `p` as well, the rest is what differs
    have hrest : ∀ y, y ∈ differs (spoil e p) q ↔ y ∈ l := by
      intro y
      have hy := h y
      rw [mem_differs, List.mem_cons] at hy
      rw [mem_differs, bitAt_spoil]
      by_cases hye : y = e
      · subst hye
        have hne := hy.mpr (Or.inl rfl)
        revert hne
        cases bitAt p y <;> cases bitAt q y <;> simp [hel]
      · simp only [hye, false_or, decide_false, Bool.xor_false] at hy ⊢
        exact hy
    rw [ih _ q hl hrest, syndromeOf_spoil]
    rfl

theorem syndromeOf_intact (orig : Block) :
    syndromeOf (orig, nandCalculateEcc orig) = ⟨0, 0, 0⟩ := by
  rw [syndromeOf, Ecc.xor_self]
  rfl


/-! ### Up to two wrong bits -/

/-- **Correction.**  `orig` was stored with its code, `dat` and `readEcc` are what is read.
One wrong bit of the data is put right.  Nothing wrong, or one wrong bit of the code, leaves
the data; the two bits of the code that are not used are counted too, so the code is one bit
off here and not only its used part.  Two wrong bits are reported and leave the data. -/
theorem correct_upTo_two (orig dat : Block) (readEcc : Ecc) :
    (∀ x, differs (orig, nandCalculateEcc orig) (dat, readEcc) = {.inl x} →
      jzsocNandHmCorrectData dat readEcc (nandCalculateEcc dat) = (0, orig, readEcc)) ∧
    (dat = orig → readEcc = nandCalculateEcc orig ∨
        (∃ n, readEcc = (nandCalculateEcc orig).xor (codeBit n)) →
      jzsocNandHmCorrectData dat readEcc (nandCalculateEcc dat) = (0, dat, nandCalculateEcc dat)) ∧
    ((differs (orig, nandCalculateEcc orig) (dat, readEcc)).card = 2 →
      jzsocNandHmCorrectData dat readEcc (nandCalculateEcc dat) = (-1, dat, readEcc)) := by
  refine ⟨fun x hx => ?_, fun hdat hecc => ?_, fun htwo => ?_⟩
  · have hmem : ∀ e, e ∈ differs (orig, nandCalculateEcc orig) (dat, readEcc) ↔ e ∈ [.inl x] := by
      intro e
      rw [hx, Finset.mem_singleton, List.mem_singleton]
    have hsyn := syndromeOf_differs _ _ _ (List.nodup_singleton _) hmem
    rw [syndromeOf_intact] at hsyn
    have hsyn : ((nandCalculateEcc dat).xor readEcc).used = dataSyndrome x :=
      hsyn.trans (Ecc.zero_xor _)
    rw [correct_data dat rfl hsyn]
    exact congrArg (fun b => (0, b, readEcc)) (eq_of_differs_single hx).symm
  · subst hdat
    rcases hecc with rfl | ⟨n, rfl⟩
    · rw [correct_eq dat (Ecc.xor_self _), if_pos rfl]
    · have hd : (nandCalculateEcc dat).xor ((nandCalculateEcc dat).xor (codeBit n))
          = codeBit n := by
        rw [← Ecc.xor_assoc, Ecc.xor_self, Ecc.zero_xor]
      exact correct_code dat n hd
  · obtain ⟨e, e', hne, htwo⟩ := Finset.card_eq_two.mp htwo
    have hmem : ∀ y, y ∈ differs (orig, nandCalculateEcc orig) (dat, readEcc) ↔ y ∈ [e, e'] := by
      intro y
      rw [htwo, Finset.mem_insert, Finset.mem_singleton, List.mem_cons, List.mem_singleton]
    have hsyn := syndromeOf_differs _ _ _ (by simpa using hne) hmem
    rw [syndromeOf_intact] at hsyn
    have hsyn : ((nandCalculateEcc dat).xor readEcc).used = (syndrome e).xor (syndrome e') :=
      hsyn.trans (congrArg (fun d => Ecc.xor d (syndrome e')) (Ecc.zero_xor _))
    refine correct_even dat rfl ?_ ?_
    · rw [hsyn, Ecc.parity_xor, (syndrome_odd e).2, (syndrome_odd e').2]
      rfl
    · rw [hsyn]
      exact fun hzero => hne (syndrome_injective (Ecc.eq_of_xor hzero))

/-- An erased block. -/
def blank : Block := ⟨List.replicate 256 0xff, List.length_replicate⟩

/-- The last bit of a block read wrong, and the last two bits of the code with it. -/
theorem correct_upTo_two_blank :
    jzsocNandHmCorrectData (blank.flip (Fin.last 255, Fin.last 7)) (nandCalculateEcc blank)
        (nandCalculateEcc (blank.flip (Fin.last 255, Fin.last 7)))
      = (0, blank, nandCalculateEcc blank) ∧
    jzsocNandHmCorrectData blank ((nandCalculateEcc blank).xor (codeBit (Fin.last 21)))
        (nandCalculateEcc blank)
      = (0, blank, nandCalculateEcc blank) ∧
    jzsocNandHmCorrectData (blank.flip (Fin.last 255, Fin.last 7))
        ((nandCalculateEcc blank).xor (codeBit (Fin.last 21)))
        (nandCalculateEcc (blank.flip (Fin.last 255, Fin.last 7)))
      = (-1, blank.flip (Fin.last 255, Fin.last 7),
          (nandCalculateEcc blank).xor (codeBit (Fin.last 21))) := by
  refine ⟨(correct_upTo_two blank _ _).1 _ (differs_spoil (.inl _) _),
    (correct_upTo_two blank _ _).2.1 rfl (Or.inr ⟨_, rfl⟩), (correct_upTo_two blank _ _).2.2 ?_⟩
  have hne : (.inl (Fin.last 255, Fin.last 7) : Err) ≠ .inr (Fin.last 21) := Sum.inl_ne_inr
  have htwo := differs_spoil_two hne (blank, nandCalculateEcc blank)
  exact (congrArg Finset.card htwo).trans (Finset.card_pair hne)

end Dingoo.NandEcc
