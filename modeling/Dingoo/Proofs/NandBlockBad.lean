/-
Which blocks the bad block check looks at in two-plane mode.

Every size of a detected chip is a power of two, so in two-plane mode the geometry is
three exponents: `2^w` bytes a page, `2^p` pages a block, `2^n` blocks, all of them
logical (`nandGetFlashType_twoPlane`).  Logical block `B` is the pair of physical blocks
`2 * B` and `2 * B + 1`, and the chip has `2^(p + n + 1)` physical pages.

`nand_block_bad` computes the right physical pages and then masks them with `pagemask`,
which counts logical pages and is therefore one bit short.  So the check reads the
blocks of the lower half of the chip where it should read those of the upper half, and
on a 16 bit bus it never looks at the second block of the pair.
-/
import Mathlib.Data.BitVec
import Mathlib.Tactic.IntervalCases
import Mathlib.Tactic.Ring
import Dingoo.Lib.Masks
import Dingoo.Linux.NandPlanes

namespace Dingoo.Nand

open Dingoo.Lib

variable {cfg : Config} {type : FlashDev} {g : Geometry} {B ext4 ext5 : Nat}

/-! ### The geometry of a two-plane chip -/

theorem ffs_two_pow : ∀ k < 64, ffs (2 ^ k) = k + 1 := by
  decide +kernel

/-- The sizes of a chip in two-plane mode as powers of two. -/
structure TwoPlane (g : Geometry) (w p n : Nat) : Prop where
  planenum : g.planenum = 2
  writesize : g.writesize = 2 ^ w
  erasesize : g.erasesize = 2 ^ (w + p)
  chipsize : g.chipsize = 2 ^ (w + p + n)
  pageShift : g.pageShift = w
  pagemask : g.pagemask = 2 ^ (p + n) - 1
  badblockpos : g.badblockpos = 0
  page_bytes : 11 ≤ w ∧ w ≤ 14
  blocks : 1 ≤ n
  chip_bytes : w + p + n ≤ 32

theorem chipsize_extended : ∀ type ∈ nandFlashIds, type.pagesize = 0 →
    ∃ m ∈ List.range' 6 7, type.chipsize = 2 ^ m := by
  decide

theorem and_three_lt (x : Nat) : x &&& 0x3 < 4 := by
  rw [show (0x3 : Nat) = 2 ^ 2 - 1 from rfl, Nat.and_two_pow_sub_one_eq_mod]
  exact Nat.mod_lt _ (by decide)

theorem sizesGeometry_twoPlane {sizes : Sizes} {w p n : Nat} (hplane : sizes.planenum = 2)
    (hwrite : sizes.writesize = 2 ^ w) (herase : sizes.erasesize = 2 ^ (w + p))
    (hchip : type.chipsize <<< 20 = 2 ^ (w + p + n)) (hw : 11 ≤ w ∧ w ≤ 14) (hn : 1 ≤ n)
    (htotal : w + p + n ≤ 32) : TwoPlane (sizesGeometry type sizes) w p n := by
  have hpage : (sizesGeometry type sizes).pageShift = w := by
    show ffs sizes.writesize - 1 = w
    rw [hwrite, ffs_two_pow w (by omega)]
    rfl
  have hlarge : sizes.writesize > 512 := by
    rw [hwrite]
    exact lt_of_lt_of_le (by decide : 512 < 2 ^ 11) (Nat.pow_le_pow_right (by decide) hw.1)
  have hmask : (sizesGeometry type sizes).pagemask
      = (type.chipsize <<< 20) >>> (sizesGeometry type sizes).pageShift - 1 := rfl
  refine ⟨hplane, hwrite, herase, hchip, hpage, ?_, if_pos hlarge, hw, hn, htotal⟩
  rw [hmask, hpage, hchip, Nat.shiftRight_eq_div_pow, Nat.add_assoc, Nat.pow_add,
    Nat.mul_div_cancel_left _ (Nat.two_pow_pos w)]

theorem extendedSizes_twoPlane (hplane : (extendedSizes cfg ext4 ext5).planenum = 2) :
    ∃ a < 4, ∃ b < 4, (extendedSizes cfg ext4 ext5).writesize = 2 ^ (11 + a) ∧
      (extendedSizes cfg ext4 ext5).erasesize = 2 ^ (17 + b) := by
  refine ⟨ext4 &&& 0x3, and_three_lt _, (ext4 >>> 2 >>> 2) &&& 0x3, and_three_lt _, ?_⟩
  unfold extendedSizes at hplane ⊢
  simp only at hplane ⊢
  generalize (if cfg.multiPlane = true then 1 <<< ((ext5 &&& 0x0c) >>> 2) else 1) = real at *
  by_cases hreal : real > 1
  · rw [if_pos hreal]
    simp only [Nat.shiftLeft_eq, Nat.pow_add]
    constructor <;> ring
  · rw [if_neg hreal] at hplane
    simp at hplane

@[simp] theorem iplSizes_planenum (cfg : Config) (sizes : Sizes) :
    (iplSizes cfg sizes).planenum = sizes.planenum := by
  unfold iplSizes
  split <;> rfl

theorem iplSizes_twoPlane {cfg : Config} {sizes : Sizes} {w e : Nat} (hw : 11 ≤ w ∧ w ≤ 14)
    (he : 17 ≤ e ∧ e ≤ 20) (hwrite : sizes.writesize = 2 ^ w) (herase : sizes.erasesize = 2 ^ e) :
    ∃ w' e', (11 ≤ w' ∧ w' ≤ 14) ∧ (17 ≤ e' ∧ e' ≤ 20) ∧
      (iplSizes cfg sizes).writesize = 2 ^ w' ∧ (iplSizes cfg sizes).erasesize = 2 ^ e' := by
  unfold iplSizes
  split
  · exact ⟨11, 18, by decide, by decide, rfl, rfl⟩
  · exact ⟨w, e, hw, he, hwrite, herase⟩

theorem typeSizes_planes (hplane : (typeSizes cfg type ext4 ext5).planenum = 2) :
    type.pagesize = 0 ∧ typeSizes cfg type ext4 ext5 = extendedSizes cfg ext4 ext5 := by
  unfold typeSizes at hplane ⊢
  by_cases hext : type.pagesize = 0
  · exact ⟨hext, if_pos hext⟩
  · rw [if_neg hext] at hplane
    simp at hplane

/-- **Every chip detected in two-plane mode has power of two sizes.** -/
theorem nandGetFlashType_twoPlane {bus : Bool} {devId : Nat}
    (hg : nandGetFlashType cfg bus devId ext4 ext5 = some g) (hplane : g.planenum = 2) :
    ∃ w p n, TwoPlane g w p n := by
  unfold nandGetFlashType at hg
  split at hg
  · simp at hg
  · rename_i type htype
    simp only at hg
    split at hg
    · simp at hg
    · obtain rfl := Option.some.inj hg
      have hplane' : (typeSizes cfg type ext4 ext5).planenum = 2 := by
        rw [← iplSizes_planenum cfg]
        exact hplane
      obtain ⟨hext, hsizes⟩ := typeSizes_planes hplane'
      obtain ⟨m, hm, hsize⟩ := chipsize_extended type (List.mem_of_find?_eq_some htype) hext
      rw [List.mem_range'_1] at hm
      rw [hsizes] at hplane hplane' ⊢
      obtain ⟨a, ha, b, hb, hwrite, herase⟩ := extendedSizes_twoPlane hplane'
      obtain ⟨w, e, hw, he, hwrite', herase'⟩ :=
        @iplSizes_twoPlane cfg _ (11 + a) (17 + b) (by omega) (by omega) hwrite herase
      refine ⟨w, e - w, 20 + m - e, sizesGeometry_twoPlane hplane hwrite' ?_ ?_ hw ?_ ?_⟩
      · rw [herase']
        congr 1
        omega
      · rw [Nat.shiftLeft_eq, hsize, ← Nat.pow_add]
        congr 1
        omega
      all_goals omega

/-! ### The pages of a logical block -/

theorem page_div {ppb r : Nat} (hr : r < ppb) (b : Nat) : (b * ppb + r) / ppb = b := by
  rw [Nat.mul_comm, Nat.mul_add_div (by omega), Nat.div_eq_of_lt hr, Nat.add_zero]

theorem planePage_block {ppb r : Nat} (hr : r < ppb) (B : Nat) :
    planePage ppb (B * ppb + r) = 2 * B * ppb + r ∧
    planePage ppb (B * ppb + r) + ppb = (2 * B + 1) * ppb + r := by
  unfold planePage
  rw [page_div hr]
  constructor <;> ring

theorem TwoPlane.ppb {w p n : Nat} (h : TwoPlane g w p n) : g.ppb = 2 ^ p := by
  rw [Geometry.ppb, h.erasesize, h.writesize, Nat.pow_add,
    Nat.mul_div_cancel_left _ (Nat.two_pow_pos w)]

/-- Erasing logical block `B` names physical block `2 * B + 1` with the second command. -/
theorem singleEraseCmdPlanes_block {g : Geometry} {w p n : Nat} (h : TwoPlane g w p n) {B r : Nat}
    (hr : r < g.ppb) (hB : B < 2 ^ n) :
    (singleEraseCmdPlanes g (B * g.ppb + r)).2 = (2 * B + 1) * g.ppb := by
  have hw := h.page_bytes
  have htotal := h.chip_bytes
  have hp : p ≤ 20 := by have := h.blocks; omega
  have hpages : (2 * B + 1) * g.ppb + r < 2 ^ 32 := by
    have hle : (2 * B + 2) * g.ppb ≤ 2 ^ (p + n + 1) := by
      rw [h.ppb, show p + n + 1 = (1 + n) + p by omega, Nat.pow_add 2 (1 + n) p]
      refine Nat.mul_le_mul_right _ ?_
      rw [Nat.pow_add]
      omega
    have hcap : 2 ^ (p + n + 1) ≤ 2 ^ 32 := Nat.pow_le_pow_right (by decide) (by omega)
    have hsplit : (2 * B + 2) * g.ppb = (2 * B + 1) * g.ppb + g.ppb := by ring
    omega
  unfold singleEraseCmdPlanes
  simp only [(planePage_block hr B).2]
  rw [h.ppb] at *
  rw [and_highMask_toNat (by omega), BitVec.toNat_ofNat, Nat.mod_eq_of_lt hpages, page_div hr]

/-! ### The check -/

section

variable {w p n : Nat}

theorem readoobAddress_twoPlane (h : TwoPlane g w p n) {page : Nat} (hpage : page < 2 ^ (p + n)) :
    readoobAddress g 0 page = (page, if g.buswidth16 then 2 ^ (w - 2) else 2 ^ (w - 1)) := by
  have hw := h.page_bytes
  have htotal := h.chip_bytes
  have hrow : (if g.chipsize > 128 <<< 20 then page % 2 ^ 24 else page % 2 ^ 16) = page := by
    rw [h.chipsize]
    split
    · have : 2 ^ (p + n) ≤ 2 ^ 24 := Nat.pow_le_pow_right (by decide) (by omega)
      exact Nat.mod_eq_of_lt (by omega)
    · rename_i hsmall
      have hexp : w + p + n ≤ 27 := by
        by_contra hbig
        exact hsmall (lt_of_lt_of_le (by decide : 128 <<< 20 < 2 ^ 28)
          (Nat.pow_le_pow_right (by decide) (by omega)))
      have : 2 ^ (p + n) ≤ 2 ^ 16 := Nat.pow_le_pow_right (by decide) (by omega)
      exact Nat.mod_eq_of_lt (by omega)
  obtain ⟨v, rfl⟩ : ∃ v, w = v + 2 := ⟨w - 2, by omega⟩
  have hhalf : (2 : Nat) ^ (v + 2) / 2 = 2 ^ (v + 1) := by
    rw [Nat.pow_succ, Nat.mul_div_cancel _ (by decide)]
  have hquarter : (2 : Nat) ^ (v + 1) >>> 1 = 2 ^ v := by
    rw [Nat.shiftRight_one, Nat.pow_succ, Nat.mul_div_cancel _ (by decide)]
  have hcol : ∀ k ≤ 14, (2 : Nat) ^ k % 2 ^ 16 = 2 ^ k := fun k hk =>
    Nat.mod_eq_of_lt (Nat.pow_lt_pow_right (by decide) (by omega))
  have hplanes : (if g.planenum > 1 then g.writesize / g.planenum else g.writesize)
      = 2 ^ (v + 1) := by
    rw [h.planenum, if_pos (by decide), h.writesize, hhalf]
  unfold readoobAddress
  simp only [hrow, hplanes, Nat.zero_add]
  cases g.buswidth16 with
  | true => rw [if_pos rfl, if_pos rfl, hquarter, hcol v (by omega)]; rfl
  | false => rw [if_neg (by decide), if_neg (by decide), hcol (v + 1) (by omega)]; rfl

/-- The marker byte in the flag page of a physical block. -/
def marker (cfg : Config) (g : Geometry) (mem : Nat → Nat → UInt8) (block : Nat) : UInt8 :=
  mem (block * g.ppb + cfg.flagPage) (g.writesize / 2 + g.badblockpos)

theorem toNat_eq_ff (b : UInt8) : b.toNat = 0xff ↔ b = 0xff := by
  rw [← UInt8.toNat_inj]
  rfl

theorem word_low_byte (a b : UInt8) : (a.toNat + b.toNat * 256) &&& 0xFF = a.toNat := by
  have ha := a.toNat_lt
  rw [show (0xFF : Nat) = 2 ^ 8 - 1 from rfl, Nat.and_two_pow_sub_one_eq_mod]
  omega

/-- The check as it is made: the two pages modulo the number of logical pages. -/
theorem nandBlockBad_twoPlane (h : TwoPlane g w p n) (mem : Nat → Nat → UInt8) (B : Nat) :
    nandBlockBad cfg g mem (B * g.erasesize) = 1 ↔
      mem ((2 * B * 2 ^ p + cfg.flagPage) % 2 ^ (p + n)) (2 ^ (w - 1)) ≠ 0xff ∨
      (g.buswidth16 = false ∧
        mem (((2 * B + 1) * 2 ^ p + cfg.flagPage) % 2 ^ (p + n)) (2 ^ (w - 1)) ≠ 0xff) := by
  have hw := h.page_bytes
  have hshift : (B * g.erasesize) >>> g.pageShift * g.planenum + cfg.flagPage
      = 2 * B * 2 ^ p + cfg.flagPage := by
    rw [h.erasesize, h.pageShift, h.planenum, Nat.shiftRight_eq_div_pow, Nat.pow_add,
      show B * (2 ^ w * 2 ^ p) = 2 ^ w * (B * 2 ^ p) by ring,
      Nat.mul_div_cancel_left _ (Nat.two_pow_pos w)]
    ring
  have hnext : 2 * B * 2 ^ p + cfg.flagPage + g.ppb = (2 * B + 1) * 2 ^ p + cfg.flagPage := by
    rw [h.ppb]
    ring
  have hplanes : g.planenum > 1 := by
    rw [h.planenum]
    decide
  have haddr := fun page => @readoobAddress_twoPlane g w p n h (page % 2 ^ (p + n))
    (Nat.mod_lt _ (Nat.two_pow_pos _))
  unfold nandBlockBad
  simp only [if_pos hplanes, hshift, hnext, h.pagemask, Nat.and_two_pow_sub_one_eq_mod,
    h.badblockpos, Nat.zero_and, haddr]
  cases g.buswidth16 with
  | false =>
    simp only [readByte, ne_eq, toNat_eq_ff, Bool.false_eq_true, if_false]
    generalize mem ((2 * B * 2 ^ p + cfg.flagPage) % 2 ^ (p + n)) (2 ^ (w - 1)) = first
    generalize mem (((2 * B + 1) * 2 ^ p + cfg.flagPage) % 2 ^ (p + n)) (2 ^ (w - 1)) = second
    by_cases h1 : first = 0xff <;> by_cases h2 : second = 0xff <;> simp [h1, h2]
  | true =>
    have hdouble : 2 * 2 ^ (w - 2) = 2 ^ (w - 1) := by
      rw [← Nat.pow_succ']
      congr 1
      omega
    simp only [readWord, if_true, hdouble, ne_eq, not_true_eq_false, if_false, word_low_byte,
      toNat_eq_ff]
    split
    · rename_i hbad
      simp [hbad]
    · rename_i hgood
      simpa using hgood

/-- A two-plane chip of 1 GiB with 2K pages and 64 pages a block. -/
def chip1G : Geometry where
  chipsize := 0x40000000
  writesize := 4096
  oobsize := 128
  erasesize := 0x40000
  realplanenum := 2
  planenum := 2
  pageShift := 12
  pagemask := 0x3ffff
  chipShift := 30
  badblockpos := 0
  buswidth16 := false

theorem chip1G_detected :
    nandGetFlashType ⟨true, false, 0⟩ false 0xD3 0x15 0x04 = some chip1G := by
  decide +kernel

/-- Logical block 2048 of that chip: the marker of its physical block 4096 is set, and the
block passes as good. -/
theorem nandBlockBad_upper_half :
    nandGetFlashType ⟨true, false, 0⟩ false 0xD3 0x15 0x04 = some chip1G ∧
    2048 * chip1G.erasesize < chip1G.chipsize ∧
    marker ⟨true, false, 0⟩ chip1G (fun page _ => if page = 4096 * 64 then 0 else 0xff) 4096 = 0 ∧
    nandBlockBad ⟨true, false, 0⟩ chip1G (fun page _ => if page = 4096 * 64 then 0 else 0xff)
      (2048 * chip1G.erasesize) = 0 :=
  ⟨chip1G_detected, by decide, by decide, by decide⟩

theorem marker_eq (h : TwoPlane g w p n) (mem : Nat → Nat → UInt8) (block : Nat) :
    marker cfg g mem block = mem (block * 2 ^ p + cfg.flagPage) (2 ^ (w - 1)) := by
  have hw := h.page_bytes
  obtain ⟨v, rfl⟩ : ∃ v, w = v + 1 := ⟨w - 1, by omega⟩
  rw [marker, h.ppb, h.writesize, h.badblockpos, Nat.add_zero, Nat.pow_succ,
    Nat.mul_div_cancel _ (by decide), Nat.add_sub_cancel]

/-- Marked only in physical block `2 * B`, logical block `B` is found bad only in the lower
half: the pages looked at are taken modulo the number of logical pages. -/
theorem lower_of_marked_first (h : TwoPlane g w p n)
    (hbad : nandBlockBad cfg g
      (fun page _ => if page = 2 * B * 2 ^ p + cfg.flagPage then 0 else 0xff)
      (B * g.erasesize) = 1) : 2 * B + 1 < 2 ^ n := by
  rw [nandBlockBad_twoPlane h] at hbad
  by_contra hupper
  -- the number of blocks is even
  obtain ⟨k, hk⟩ : ∃ k, 2 ^ n = 2 * k := ⟨2 ^ (n - 1), by
    rw [← Nat.pow_succ']
    congr 1
    have := h.blocks
    omega⟩
  have hge : 2 ^ n * 2 ^ p ≤ 2 * B * 2 ^ p := Nat.mul_le_mul_right _ (by omega)
  have hmod : ∀ x, x % 2 ^ (p + n) ≠ 2 * B * 2 ^ p + cfg.flagPage := by
    intro x
    have hlt := Nat.mod_lt x (Nat.two_pow_pos (p + n))
    have hpages : 2 ^ (p + n) = 2 ^ n * 2 ^ p := by rw [Nat.pow_add, Nat.mul_comm]
    omega
  simp [hmod] at hbad

/-- Marked only in physical block `2 * B + 1`, logical block `B` is found bad only on an
8 bit bus: the 16 bit branch does not read the second block. -/
theorem bus8_of_marked_second (h : TwoPlane g w p n)
    (hbad : nandBlockBad cfg g
      (fun page _ => if page = (2 * B + 1) * 2 ^ p + cfg.flagPage then 0 else 0xff)
      (B * g.erasesize) = 1) : g.buswidth16 = false := by
  rw [nandBlockBad_twoPlane h] at hbad
  by_contra hbus
  have hne : (2 * B * 2 ^ p + cfg.flagPage) % 2 ^ (p + n) ≠
      (2 * B + 1) * 2 ^ p + cfg.flagPage := by
    have hle := Nat.mod_le (2 * B * 2 ^ p + cfg.flagPage) (2 ^ (p + n))
    have hsucc : (2 * B + 1) * 2 ^ p = 2 * B * 2 ^ p + 2 ^ p := by ring
    have hP : 0 < 2 ^ p := Nat.two_pow_pos p
    omega
  simp [hbus, hne] at hbad

theorem flagPage_lt {b : Nat} (hb : b < 2 ^ n) (hflag : cfg.flagPage < 2 ^ p) :
    b * 2 ^ p + cfg.flagPage < 2 ^ (p + n) := by
  have hle : (b + 1) * 2 ^ p ≤ 2 ^ n * 2 ^ p := Nat.mul_le_mul_right _ hb
  have hsucc : (b + 1) * 2 ^ p = b * 2 ^ p + 2 ^ p := by ring
  rw [Nat.pow_add, Nat.mul_comm (2 ^ p)]
  omega

/-- **The check looks at the right blocks on an 8 bit bus and in the lower half of the chip,
and nowhere else.**  The right blocks are the physical blocks `2 * B` and `2 * B + 1`, whose
pages the two-plane page mapping assigns to logical block `B`. -/
theorem nandBlockBad_iff {bus : Bool} {devId ext4 ext5 : Nat}
    (hg : nandGetFlashType cfg bus devId ext4 ext5 = some g) (hplane : g.planenum = 2)
    (hflag : cfg.flagPage < g.ppb) (B : Nat) :
    (planePage g.ppb (B * g.ppb + cfg.flagPage) = 2 * B * g.ppb + cfg.flagPage ∧
      planePage g.ppb (B * g.ppb + cfg.flagPage) + g.ppb
        = (2 * B + 1) * g.ppb + cfg.flagPage) ∧
    ((∀ mem, nandBlockBad cfg g mem (B * g.erasesize) = 1 ↔
        marker cfg g mem (2 * B) ≠ 0xff ∨ marker cfg g mem (2 * B + 1) ≠ 0xff) ↔
      g.buswidth16 = false ∧ 2 * B + 1 < g.chipsize / g.erasesize) := by
  obtain ⟨w, p, n, h⟩ := nandGetFlashType_twoPlane hg hplane
  refine ⟨planePage_block hflag B, ?_⟩
  have hblocks : g.chipsize / g.erasesize = 2 ^ n := by
    rw [h.chipsize, h.erasesize, Nat.pow_add 2 (w + p) n,
      Nat.mul_div_cancel_left _ (Nat.two_pow_pos _)]
  rw [h.ppb] at hflag
  rw [hblocks]
  simp only [marker_eq h]
  constructor
  · intro hall
    exact ⟨bus8_of_marked_second h ((hall _).mpr (Or.inr (by simp))),
      lower_of_marked_first h ((hall _).mpr (Or.inl (by simp)))⟩
  · rintro ⟨hbus, hlower⟩ mem
    rw [nandBlockBad_twoPlane h, Nat.mod_eq_of_lt (flagPage_lt (by omega) hflag),
      Nat.mod_eq_of_lt (flagPage_lt hlower hflag)]
    simp [hbus]

/-- The last block of the lower half of that chip is checked correctly. -/
theorem nandBlockBad_lower_half :
    chip1G.planenum = 2 ∧ 0 < chip1G.ppb ∧
    ∀ mem, nandBlockBad ⟨true, false, 0⟩ chip1G mem (2047 * chip1G.erasesize) = 1 ↔
      marker ⟨true, false, 0⟩ chip1G mem (2 * 2047) ≠ 0xff ∨
      marker ⟨true, false, 0⟩ chip1G mem (2 * 2047 + 1) ≠ 0xff :=
  ⟨rfl, by decide, (nandBlockBad_iff chip1G_detected rfl (by decide) 2047).2.mpr (by decide)⟩

end

end Dingoo.Nand
