/-
The capacity of the card.

The card specific data are one number of 128 bits, and a field is a range of its bits.
The decoder puts the fields together from bytes, which gives their values
(`unpackVersion1_cSize`, `unpackVersion2_cSize`).  Two things are lost behind that: for
blocks longer than 512 bytes the size field is scaled before one is added to it, and the
size field of version 2 is stored in 16 of its 22 bits.
-/
import Mathlib.Tactic.Ring
import Dingoo.Lib.Masks
import Dingoo.UBoot.JzMmcCsd

namespace Dingoo.JzMmc.Csd

open Dingoo.Lib

variable {csd : BitVec 128} {n : Nat}

/-! ### The specification -/

/-- The field of `width` bits from bit `lo` on. -/
def field (csd : BitVec 128) (lo width : Nat) : Nat := (csd.extractLsb' lo width).toNat

def csdStructure (csd : BitVec 128) : Nat := field csd 126 2
def readBlLen (csd : BitVec 128) : Nat := field csd 80 4
def cSizeMult (csd : BitVec 128) : Nat := field csd 47 3

/-- `C_SIZE`, of 12 bits in version 1 and of 22 in version 2. -/
def cSize (csd : BitVec 128) : Nat :=
  if csdStructure csd = 0 then field csd 62 12 else field csd 48 22

/-- The capacity in bytes. -/
def capacity (csd : BitVec 128) : Nat :=
  if csdStructure csd = 0 then (cSize csd + 1) * 2 ^ (cSizeMult csd + 2) * 2 ^ readBlLen csd
  else (cSize csd + 1) * (512 * 1024)

/-- The response to `MMC_SEND_CSD`: the header and the bytes of the data. -/
def csdResponse (csd : BitVec 128) : Reply :=
  ⟨.noError, 0x3f :: (List.range 16).map fun k => csd.extractLsb' (120 - 8 * k) 8⟩

/-- The card after `mmc_unpack_csd` and `mmc_configure_card`. -/
def configured (csd : BitVec 128) (before : MmcCsd) (sd20 sd : Bool) : CardInfo :=
  mmcConfigureCard (mmcUnpackCsd (csdResponse csd) before sd20).2.1
    (mmcUnpackCsd (csdResponse csd) before sd20).2.2 sd

/-! ### The fields -/

/-- Byte `i` of the response. -/
def csdByte (csd : BitVec 128) (i : Nat) : BitVec 8 := (csdResponse csd).response.getD i 0

theorem csdByte_toNat (csd : BitVec 128) {k : Nat} (hk : k < 16) :
    (csdByte csd (k + 1)).toNat = csd.toNat / 2 ^ (120 - 8 * k) % 2 ^ 8 := by
  have hget : csdByte csd (k + 1) = csd.extractLsb' (120 - 8 * k) 8 := by
    simp [csdByte, csdResponse, List.getD_eq_getElem?_getD, hk]
  rw [hget, BitVec.extractLsb'_toNat, Nat.shiftRight_eq_div_pow]

theorem field_eq (csd : BitVec 128) (lo width : Nat) :
    field csd lo width = csd.toNat / 2 ^ lo % 2 ^ width := by
  rw [field, BitVec.extractLsb'_toNat, Nat.shiftRight_eq_div_pow]

theorem promote_toNat (b : BitVec 8) : (promote b).toNat = b.toNat := by
  simp only [promote, BitVec.toNat_setWidth]
  omega

theorem promote_shiftLeft_toNat (b : BitVec 8) (hn : n ≤ 24) :
    (promote b <<< n).toNat = b.toNat <<< n := by
  have hpow : 2 ^ n ≤ 2 ^ 24 := Nat.pow_le_pow_right (by decide) hn
  have hlt : b.toNat * 2 ^ n < 2 ^ 32 :=
    calc b.toNat * 2 ^ n < 2 ^ 8 * 2 ^ n := Nat.mul_lt_mul_of_pos_right b.isLt (Nat.two_pow_pos n)
      _ ≤ 2 ^ 8 * 2 ^ 24 := Nat.mul_le_mul_left _ hpow
      _ = 2 ^ 32 := rfl
  rw [BitVec.toNat_shiftLeft, promote_toNat, Nat.shiftLeft_eq, Nat.mod_eq_of_lt hlt]

theorem cSizeBytes1_toNat (b7 b8 b9 : BitVec 8) :
    ((((promote b7 &&& 0x03) <<< 10) ||| (promote b8 <<< 2) |||
      ((promote b9 &&& 0xc0) >>> 6)).setWidth 16).toNat =
      b7.toNat % 4 * 1024 + b8.toNat * 4 + b9.toNat / 64 := by
  have h7 : ((promote b7 &&& 0x03) <<< 10).toNat = (b7.toNat % 4) <<< 10 := by
    rw [← promote_toNat b7]
    exact and_low_shiftLeft_toNat (p := 2) rfl (by decide)
  have h9 : ((promote b9 &&& 0xc0) >>> 6).toNat = b9.toNat / 64 := by
    have hlt := b9.isLt
    rw [← promote_toNat b9] at hlt ⊢
    exact and_high_shiftRight_toNat (k := 2) rfl hlt
  rw [BitVec.toNat_setWidth, BitVec.toNat_or, BitVec.toNat_or, h7, h9,
    promote_shiftLeft_toNat b8 (by decide), @shiftLeft_or_or _ _ 8 2 _ (by omega) (by omega)]
  omega

theorem cSizeBytes2_toNat (b8 b9 b10 : BitVec 8) :
    ((((promote b8 &&& 0x3f) <<< 16) ||| (promote b9 <<< 8) ||| promote b10).setWidth 16).toNat =
      (b8.toNat % 64 * 65536 + b9.toNat * 256 + b10.toNat) % 65536 := by
  have h8 : ((promote b8 &&& 0x3f) <<< 16).toNat = (b8.toNat % 64) <<< 16 := by
    rw [← promote_toNat b8]
    exact and_low_shiftLeft_toNat (p := 6) rfl (by decide)
  rw [BitVec.toNat_setWidth, BitVec.toNat_or, BitVec.toNat_or, h8, promote_toNat,
    promote_shiftLeft_toNat b9 (by decide), @shiftLeft_or_or _ _ 8 8 _ (by omega) (by omega)]
  omega

theorem cSizeMultBytes_toNat (b10 b11 : BitVec 8) :
    (((b10 &&& 0x03) <<< 1) ||| ((b11 &&& 0x80) >>> 7)).toNat =
      b10.toNat % 4 * 2 + b11.toNat / 128 := by
  have h10 : ((b10 &&& 0x03) <<< 1).toNat = (b10.toNat % 4) <<< 1 :=
    and_low_shiftLeft_toNat (p := 2) rfl (by decide)
  have h11 : ((b11 &&& 0x80) >>> 7).toNat = b11.toNat / 128 :=
    and_high_shiftRight_toNat (k := 1) rfl b11.isLt
  rw [BitVec.toNat_or, h10, h11, @shiftLeft_or _ 1 _ (by omega)]
  omega

/-! ### The decoded data -/

section
variable (buf : Nat → BitVec 8) (before : MmcCsd)

theorem unpackVersion1_cSizeMult :
    (unpackVersion1 buf before).cSizeMult.toNat =
      (buf 10).toNat % 4 * 2 + (buf 11).toNat / 128 :=
  cSizeMultBytes_toNat _ _

/-- Blocks of 1024 and 2048 bytes are counted as blocks of 512, and the size field is scaled. -/
theorem unpackVersion1_scaled (hn : n ≤ 2) (hlen : (buf 6).toNat % 16 = 9 + n) :
    (unpackVersion1 buf before).readBlLen = 9 ∧
    (unpackVersion1 buf before).cSize.toNat =
      ((buf 7).toNat % 4 * 1024 + (buf 8).toNat * 4 + (buf 9).toNat / 64) * 2 ^ n := by
  have hmask : (buf 6 &&& 0x0f).toNat = (buf 6).toNat % 16 := and_low_toNat (p := 4) rfl
  have hbytes := cSizeBytes1_toNat (buf 7) (buf 8) (buf 9)
  have hval : buf 6 &&& 0x0f = BitVec.ofNat 8 (9 + n) := by
    apply BitVec.eq_of_toNat_eq
    rw [hmask, hlen, BitVec.toNat_ofNat]
    omega
  unfold unpackVersion1
  rw [hval]
  rcases (by omega : n = 0 ∨ n = 1 ∨ n = 2) with rfl | rfl | rfl
  · exact ⟨rfl, by rw [Nat.pow_zero, Nat.mul_one]; exact hbytes⟩
  · refine ⟨rfl, ?_⟩
    show BitVec.toNat ((_ : BitVec 16) <<< (1 : Nat)) = _
    rw [BitVec.toNat_shiftLeft, hbytes, Nat.shiftLeft_eq]
    omega
  · refine ⟨rfl, ?_⟩
    show BitVec.toNat ((_ : BitVec 16) <<< (2 : Nat)) = _
    rw [BitVec.toNat_shiftLeft, hbytes, Nat.shiftLeft_eq]
    omega

theorem unpackVersion2_cSize :
    (unpackVersion2 buf before).cSize.toNat =
      ((buf 8).toNat % 64 * 65536 + (buf 9).toNat * 256 + (buf 10).toNat) % 65536 :=
  cSizeBytes2_toNat _ _ _

end

/-- The decoder in the state machine, which keeps less, takes the same case. -/
theorem mmcUnpackCsd_agrees (request : Reply) (csd : MmcCsd) (sd20 : Bool) :
    (mmcUnpackCsd request csd sd20).1 = (JzMmc.mmcUnpackCsd request).1 ∧
    (mmcUnpackCsd request csd sd20).2.2 = (JzMmc.mmcUnpackCsd request).2.getD sd20 := by
  have hshift : ∀ b : BitVec 8, decide ((b &&& 0xc0) >>> 6 ≠ 0) = decide (b &&& 0xc0 ≠ 0) := by
    decide +kernel
  unfold mmcUnpackCsd JzMmc.mmcUnpackCsd unpackReserved
  by_cases hresult : request.result ≠ .noError
  · rw [if_pos hresult, if_pos hresult, if_pos hresult]
    exact ⟨rfl, rfl⟩
  · rw [if_neg hresult, if_neg hresult, if_neg hresult]
    exact ⟨rfl, hshift _⟩

/-! ### The card -/

theorem configured_blockLen {csd : MmcCsd} (sd20 sd : Bool) (hlen : csd.readBlLen = 9) :
    (mmcConfigureCard csd sd20 sd).blockLen.toNat = 512 := by
  unfold mmcConfigureCard
  rw [hlen]
  rfl

theorem configured_blockNum1 {csd : MmcCsd} (sd : Bool) (hsize : csd.cSize.toNat < 2 ^ 14)
    (hmult : csd.cSizeMult.toNat ≤ 7) :
    (mmcConfigureCard csd false sd).blockNum.toNat =
      (csd.cSize.toNat + 1) * 2 ^ (csd.cSizeMult.toNat + 2) := by
  have hshift : ((1 : BitVec 32) <<< (promote csd.cSizeMult + 2)).toNat =
      2 ^ (csd.cSizeMult.toNat + 2) := by
    have hbits : (promote csd.cSizeMult + 2).toNat = csd.cSizeMult.toNat + 2 := by
      rw [BitVec.toNat_add, promote_toNat]
      show (_ + 2) % _ = _
      omega
    rw [BitVec.shiftLeft_eq', hbits, BitVec.toNat_shiftLeft]
    show 1 <<< _ % _ = _
    rw [Nat.one_shiftLeft, Nat.mod_eq_of_lt (Nat.pow_lt_pow_right (by decide) (by omega))]
  have hpow : 2 ^ (csd.cSizeMult.toNat + 2) ≤ 2 ^ 9 := Nat.pow_le_pow_right (by decide) (by omega)
  have hlt : (csd.cSize.toNat + 1) * 2 ^ (csd.cSizeMult.toNat + 2) < 2 ^ 32 :=
    calc (csd.cSize.toNat + 1) * 2 ^ (csd.cSizeMult.toNat + 2)
        ≤ 2 ^ 14 * 2 ^ 9 := Nat.mul_le_mul hsize hpow
      _ < 2 ^ 32 := by decide
  show ((csd.cSize.setWidth 32 + 1) * ((1 : BitVec 32) <<< (promote csd.cSizeMult + 2))).toNat = _
  have hadd : (csd.cSize.setWidth 32 + 1).toNat = csd.cSize.toNat + 1 := by
    rw [BitVec.toNat_add, BitVec.toNat_setWidth]
    show (_ + 1) % _ = _
    omega
  rw [BitVec.toNat_mul, hshift, hadd, Nat.mod_eq_of_lt hlt]

theorem configured_blockNum2 (csd : MmcCsd) (sd : Bool) :
    (mmcConfigureCard csd true sd).blockNum.toNat = (csd.cSize.toNat + 1) * 1024 := by
  show ((csd.cSize.setWidth 32 + 1) <<< 10).toNat = _
  rw [BitVec.toNat_shiftLeft, BitVec.toNat_add, BitVec.toNat_setWidth, Nat.shiftLeft_eq]
  show (_ + 1) % _ * _ % _ = _
  omega

theorem csdByte_structure {v : BitVec 8} (h : csdStructure csd = v.toNat) :
    (csdByte csd 1 &&& 0xc0) >>> 6 = v := by
  apply BitVec.eq_of_toNat_eq
  rw [and_high_shiftRight_toNat (k := 2) rfl (BitVec.isLt _),
    csdByte_toNat csd (k := 0) (by decide), ← h, csdStructure, field_eq]
  omega

theorem configured_version1 (before : MmcCsd) (sd20 sd : Bool) (h : csdStructure csd = 0) :
    configured csd before sd20 sd =
      mmcConfigureCard (unpackVersion1 (csdByte csd) { before with csdStructure := 0 })
        false sd := by
  have hzero := csdByte_structure (v := 0) h
  unfold csdByte at hzero
  unfold configured mmcUnpackCsd
  rw [if_neg (by simp [csdResponse])]
  simp only [hzero]
  rfl

theorem configured_version2 (before : MmcCsd) (sd20 sd : Bool) (h : csdStructure csd = 1) :
    configured csd before sd20 sd =
      mmcConfigureCard (unpackVersion2 (csdByte csd) { before with csdStructure := 1 })
        true sd := by
  have hone := csdByte_structure (v := 1) h
  unfold csdByte at hone
  unfold configured mmcUnpackCsd
  rw [if_neg (by simp [csdResponse])]
  simp only [hone]
  rfl

theorem product_version1 (before : MmcCsd) (sd20 sd : Bool) (h : csdStructure csd = 0) (hn : n ≤ 2)
    (hlen : readBlLen csd = 9 + n) :
    (configured csd before sd20 sd).blockNum.toNat *
        (configured csd before sd20 sd).blockLen.toNat =
      (cSize csd * 2 ^ n + 1) * 2 ^ (cSizeMult csd + 2) * 512 := by
  have hbyte : ∀ {k}, k < 16 → (csdByte csd (k + 1)).toNat = _ := csdByte_toNat csd
  have hlen' : (csdByte csd 6).toNat % 16 = 9 + n := by
    rw [hbyte (k := 5) (by decide), ← hlen, readBlLen, field_eq]
    omega
  obtain ⟨h9, hsize⟩ :=
    unpackVersion1_scaled (csdByte csd) { before with csdStructure := 0 } hn hlen'
  have hmult := unpackVersion1_cSizeMult (csdByte csd) { before with csdStructure := 0 }
  have hsizeField : (csdByte csd 7).toNat % 4 * 1024 + (csdByte csd 8).toNat * 4 +
      (csdByte csd 9).toNat / 64 = cSize csd := by
    rw [hbyte (k := 6) (by decide), hbyte (k := 7) (by decide), hbyte (k := 8) (by decide), cSize,
      if_pos h, field_eq]
    omega
  have hmultField : (csdByte csd 10).toNat % 4 * 2 + (csdByte csd 11).toNat / 128 =
      cSizeMult csd := by
    rw [hbyte (k := 9) (by decide), hbyte (k := 10) (by decide), cSizeMult, field_eq]
    omega
  rw [hsizeField] at hsize
  rw [hmultField] at hmult
  have hmultLe : cSizeMult csd ≤ 7 := by
    rw [cSizeMult, field_eq]
    omega
  have hscaled : cSize csd * 2 ^ n < 2 ^ 14 := by
    have hpow : 2 ^ n ≤ 2 ^ 2 := Nat.pow_le_pow_right (by decide) hn
    calc cSize csd * 2 ^ n ≤ cSize csd * 2 ^ 2 := Nat.mul_le_mul_left _ hpow
      _ < 2 ^ 14 := by omega
  rw [configured_version1 before sd20 sd h, configured_blockLen false sd h9,
    configured_blockNum1 sd (by rw [hsize]; exact hscaled) (by rw [hmult]; exact hmultLe), hsize,
    hmult]

theorem product_version2 (before : MmcCsd) (sd20 sd : Bool) (h : csdStructure csd = 1) :
    (configured csd before sd20 sd).blockNum.toNat *
        (configured csd before sd20 sd).blockLen.toNat =
      (cSize csd % 2 ^ 16 + 1) * (512 * 1024) := by
  have hbyte : ∀ {k}, k < 16 → (csdByte csd (k + 1)).toNat = _ := csdByte_toNat csd
  have hsize := unpackVersion2_cSize (csdByte csd) { before with csdStructure := 1 }
  have hsizeField : (csdByte csd 8).toNat % 64 * 65536 + (csdByte csd 9).toNat * 256 +
      (csdByte csd 10).toNat = cSize csd := by
    rw [hbyte (k := 7) (by decide), hbyte (k := 8) (by decide), hbyte (k := 9) (by decide), cSize,
      if_neg (by omega), field_eq]
    omega
  rw [hsizeField] at hsize
  rw [configured_version2 before sd20 sd h, configured_blockLen true sd rfl,
    configured_blockNum2, hsize]
  omega

/-- **The capacity is the one the card states exactly for blocks of 512 bytes in version 1, and
for a size field below 65536 in version 2.** -/
theorem capacity_iff (csd : BitVec 128) (before : MmcCsd) (sd20 sd : Bool)
    (hversion : csdStructure csd = 0 ∧ 9 ≤ readBlLen csd ∧ readBlLen csd ≤ 11 ∨
      csdStructure csd = 1) :
    (configured csd before sd20 sd).blockNum.toNat *
        (configured csd before sd20 sd).blockLen.toNat = capacity csd ↔
      csdStructure csd = 0 ∧ readBlLen csd = 9 ∨
        csdStructure csd = 1 ∧ cSize csd < 65536 := by
  rcases hversion with ⟨h0, h9, h11⟩ | h1
  · obtain ⟨n, hn⟩ := Nat.exists_eq_add_of_le h9
    rw [product_version1 before sd20 sd h0 (by omega) hn, capacity, if_pos h0, hn]
    have hpos : 0 < 2 ^ (cSizeMult csd + 2) * 512 :=
      Nat.mul_pos (Nat.two_pow_pos _) (by decide)
    have hcap : (cSize csd + 1) * 2 ^ (cSizeMult csd + 2) * 2 ^ (9 + n) =
        (cSize csd + 1) * 2 ^ n * (2 ^ (cSizeMult csd + 2) * 512) := by
      rw [Nat.pow_add 2 9 n]
      ring
    rw [hcap, Nat.mul_assoc, Nat.mul_right_cancel_iff hpos]
    constructor
    · intro heq
      refine Or.inl ⟨h0, ?_⟩
      rcases (by omega : n = 0 ∨ n = 1 ∨ n = 2) with rfl | rfl | rfl
      · rfl
      · omega
      · omega
    · rintro (⟨-, hlen⟩ | ⟨hone, -⟩)
      · obtain rfl : n = 0 := by omega
        omega
      · omega
  · rw [product_version2 before sd20 sd h1, capacity, if_neg (by omega),
      Nat.mul_right_cancel_iff (by decide)]
    omega

/-- A card of 1 GB with blocks of 512 bytes. -/
theorem capacity_small_blocks :
    csdStructure (9 <<< 80 ||| 4095 <<< 62 ||| 7 <<< 47) = 0 ∧
    readBlLen (9 <<< 80 ||| 4095 <<< 62 ||| 7 <<< 47) = 9 ∧
    (configured (9 <<< 80 ||| 4095 <<< 62 ||| 7 <<< 47) ⟨0, 0, 0, 0, 0⟩ false true).blockNum.toNat *
      (configured (9 <<< 80 ||| 4095 <<< 62 ||| 7 <<< 47)
        ⟨0, 0, 0, 0, 0⟩ false true).blockLen.toNat =
      capacity (9 <<< 80 ||| 4095 <<< 62 ||| 7 <<< 47) := by
  have h0 : csdStructure (9 <<< 80 ||| 4095 <<< 62 ||| 7 <<< 47) = 0 := by decide +kernel
  have h9 : readBlLen (9 <<< 80 ||| 4095 <<< 62 ||| 7 <<< 47) = 9 := by decide +kernel
  exact ⟨h0, h9, (capacity_iff _ ⟨0, 0, 0, 0, 0⟩ false true
    (Or.inl ⟨h0, by omega, by omega⟩)).mpr (Or.inl ⟨h0, h9⟩)⟩

/-- A card of 2 GB with blocks of 1024 bytes, and one of 64 GB. -/
theorem capacity_large_cards :
    (configured (10 <<< 80 ||| 4095 <<< 62 ||| 7 <<< 47) ⟨0, 0, 0, 0, 0⟩ false true).blockNum =
      8191 * 512 ∧
    (configured (10 <<< 80 ||| 4095 <<< 62 ||| 7 <<< 47) ⟨0, 0, 0, 0, 0⟩ false true).blockLen =
      512 ∧
    capacity (10 <<< 80 ||| 4095 <<< 62 ||| 7 <<< 47) = 8192 * 512 * 512 ∧
    (configured (1 <<< 126 ||| 0x1ffff <<< 48) ⟨0, 0, 0, 0, 0⟩ false true).blockNum =
      65536 * 1024 ∧
    (configured (1 <<< 126 ||| 0x1ffff <<< 48) ⟨0, 0, 0, 0, 0⟩ false true).blockLen = 512 ∧
    capacity (1 <<< 126 ||| 0x1ffff <<< 48) = 131072 * 1024 * 512 := by
  decide +kernel

end Dingoo.JzMmc.Csd
